import MinesApp.TransitionSystem

/-!
# Who may join a call

A room token is signed by `calls.service.ts` for a member of a group, and names a room, a user
and the group.  The call service admits a peer that shows a token for its user and the room.
Nothing relates the room to the group: `requestRoomToken` takes the room from the request, and
the call service does not read the group.  So a member of any group gets into any room whose id
they know.

`decode` is what the JWT library does with a secret, the time and a token; the result asks only
that the claims it gives are those that were signed.  A room id that `initiateCall` draws is in no
token yet.
-/

namespace MinesApp.CallRooms

open TransitionSystem List Function

/-! ## 1. Tokens and admissions -/

structure RoomClaims where
  roomId : String
  sub : String
  groupId : String
  deriving DecidableEq

/-- A signed token.  `memberOf` is no claim: the groups of the user when it was issued. -/
structure RoomToken where
  claims : RoomClaims
  secret : String
  exp : Nat
  memberOf : String → Bool

structure PeerId where
  userId : String
  uuid : Nat
  deriving DecidableEq

/-- `CALL_ROOM_SECRET` of either service. -/
structure Config where
  deliverySecret : Option String
  callSecret : String

structure Admission where
  peerId : PeerId
  roomId : String
  roomToken : Option RoomToken

/-- `initiated` has the group that each room was initiated for; no code reads it. -/
structure State where
  members : String → String → Bool
  clock : Nat
  issued : List RoomToken
  initiated : List (String × String)
  roomOf : PeerId → Option String
  admitted : List Admission

def State.start (members : String → String → Bool) : State :=
  ⟨members, 0, [], [], fun _ => none, []⟩

/-! ## 2. The services -/

/-- What `initiateCall` and `requestRoomToken` do once they have a room id. -/
def issueRoomToken (config : Config) (state : State) (userId groupId roomId : String) :
    Except String RoomToken :=
  if state.members groupId userId = false then .error "Not a member of this group"
  else
    match config.deliverySecret with
    | none => .error "Call room tokens are not configured on this server"
    | some secret =>
      .ok ⟨⟨roomId, userId, groupId⟩, secret, state.clock + 300, fun id => state.members id userId⟩

variable (decode : String → Nat → RoomToken → Option RoomClaims)

/-- The checks of `Join`. -/
def joinAllowed (config : Config) (clock : Nat) (userId roomId : String) :
    Option RoomToken → Bool
  | none => config.callSecret = ""
  | some token =>
    config.callSecret = "" || (decode config.callSecret clock token).any fun claims =>
      claims.roomId = roomId && claims.sub = userId

inductive Action
  | setMember (groupId userId : String) (member : Bool)
  | wait (seconds : Nat)
  | initiateCall (userId groupId roomId : String)
  | requestRoomToken (userId groupId roomId : String)
  | join (peerId : PeerId) (roomId : String) (token : Option Nat)
  | leave (peerId : PeerId)

/-- A call that is refused leaves the state as it is. -/
def step (config : Config) (state : State) : Action → Option State
  | .setMember groupId userId member =>
    let users := update (state.members groupId) userId member
    some { state with members := update state.members groupId users }
  | .wait seconds => some { state with clock := state.clock + seconds }
  | .initiateCall userId groupId roomId =>
    if ∃ token ∈ state.issued, token.claims.roomId = roomId then none
    else
      match issueRoomToken config state userId groupId roomId with
      | .error _ => some state
      | .ok token =>
        some { state with
          issued := token :: state.issued
          initiated := (roomId, groupId) :: state.initiated }
  | .requestRoomToken userId groupId roomId =>
    match issueRoomToken config state userId groupId roomId with
    | .error _ => some state
    | .ok token => some { state with issued := token :: state.issued }
  | .join peerId roomId token =>
    let roomToken := token.bind (state.issued[·]?)
    if joinAllowed decode config state.clock peerId.userId roomId roomToken &&
      state.roomOf peerId = none then
      some { state with
        roomOf := update state.roomOf peerId (some roomId)
        admitted := ⟨peerId, roomId, roomToken⟩ :: state.admitted }
    else some state
  | .leave peerId => some { state with roomOf := update state.roomOf peerId none }

/-! ## 3. Confinement -/

/-- A token that is asked for names the group that its room was initiated for. -/
def namesItsGroup (state : State) : Action → Prop
  | .requestRoomToken _ groupId roomId => ∀ id, (roomId, id) ∈ state.initiated → id = groupId
  | _ => True

/-- The member that a token is for belongs to its group, which is that of its room. -/
def Bound (state : State) (token : RoomToken) : Prop :=
  token.memberOf token.claims.groupId = true ∧
    ∀ groupId, (token.claims.roomId, groupId) ∈ state.initiated → groupId = token.claims.groupId

structure Confined (state : State) : Prop where
  bound : ∀ token ∈ state.issued, Bound state token
  initiators : ∀ entry ∈ state.initiated, ∃ token ∈ state.issued, token.claims.roomId = entry.1
  admissions : ∀ admission ∈ state.admitted, ∃ token ∈ state.issued,
    admission.roomToken = some token ∧ token.claims.roomId = admission.roomId ∧
      token.claims.sub = admission.peerId.userId

/-- The library gives the claims that were signed. -/
def Authentic : Prop :=
  ∀ secret clock token claims, decode secret clock token = some claims → claims = token.claims

variable {decode} {config : Config} {state next : State}

theorem issueRoomToken_ok {userId groupId roomId : String} {token : RoomToken}
    (h : issueRoomToken config state userId groupId roomId = .ok token) :
    token.claims = ⟨roomId, userId, groupId⟩ ∧ token.memberOf groupId = true := by
  unfold issueRoomToken at h
  split at h
  · cases h
  next hmember =>
    split at h
    · cases h
    · cases h
      exact ⟨rfl, by simpa using hmember⟩

/-- A further token leaves the old ones as they were, and is bound itself where its room has no
    other group. -/
theorem Confined.issue (h : Confined state) {token : RoomToken}
    (hmember : token.memberOf token.claims.groupId = true)
    (hgroup : ∀ id, (token.claims.roomId, id) ∈ state.initiated → id = token.claims.groupId) :
    Confined { state with issued := token :: state.issued } where
  bound other hother := by
    rcases mem_cons.mp hother with rfl | hold
    · exact ⟨hmember, hgroup⟩
    · exact h.bound other hold
  initiators entry hentry := by
    obtain ⟨other, hother, hroom⟩ := h.initiators entry hentry
    exact ⟨other, mem_cons_of_mem _ hother, hroom⟩
  admissions admission hadmission := by
    obtain ⟨other, hother, hshown⟩ := h.admissions admission hadmission
    exact ⟨other, mem_cons_of_mem _ hother, hshown⟩

/-- A room is entered for the group that every token for it names. -/
theorem Confined.enter (h : Confined state) {entry : String × String}
    (hgroup : ∀ token ∈ state.issued, token.claims.roomId = entry.1 →
      entry.2 = token.claims.groupId)
    (hissued : ∃ token ∈ state.issued, token.claims.roomId = entry.1) :
    Confined { state with initiated := entry :: state.initiated } where
  bound token htoken := by
    refine ⟨(h.bound token htoken).1, fun groupId hentry => ?_⟩
    rcases mem_cons.mp hentry with rfl | hbefore
    · exact hgroup token htoken rfl
    · exact (h.bound token htoken).2 groupId hbefore
  initiators other hother := by
    rcases mem_cons.mp hother with rfl | hbefore
    · exact hissued
    · exact h.initiators other hbefore
  admissions := h.admissions

protected theorem Confined.step {action : Action} (hdecode : Authentic decode)
    (hsecret : config.callSecret ≠ "") (h : Confined state) (hok : namesItsGroup state action)
    (hstep : step decode config state action = some next) : Confined next := by
  cases action with simp only [step] at hstep
  | setMember | wait | leave =>
    cases hstep
    exact ⟨h.bound, h.initiators, h.admissions⟩
  | initiateCall userId groupId roomId =>
    split at hstep
    · cases hstep
    next hnew =>
      split at hstep
      · cases hstep
        exact h
      next token htoken =>
        cases hstep
        obtain ⟨hclaims, hmember⟩ := issueRoomToken_ok htoken
        have hissued : Confined { state with issued := token :: state.issued } := by
          refine h.issue (by rwa [hclaims]) fun id hentry => ?_
          -- an entry for the room would have come with a token
          obtain ⟨earlier, hearlier, hroom⟩ := h.initiators _ hentry
          exact absurd ⟨earlier, hearlier, by rw [hroom, hclaims]⟩ hnew
        refine hissued.enter ?_ ⟨token, mem_cons_self, by rw [hclaims]⟩
        intro other hother hroom
        rcases mem_cons.mp hother with rfl | hold
        · rw [hclaims]
        · exact absurd ⟨other, hold, hroom⟩ hnew
  | requestRoomToken userId groupId roomId =>
    split at hstep
    · cases hstep
      exact h
    next token htoken =>
      cases hstep
      obtain ⟨hclaims, hmember⟩ := issueRoomToken_ok htoken
      apply h.issue
      · rwa [hclaims]
      · rw [hclaims]
        exact hok
  | join peerId roomId shown =>
    split at hstep
    next hallowed =>
      cases hstep
      refine ⟨h.bound, h.initiators, fun admission hadmission => ?_⟩
      rcases mem_cons.mp hadmission with rfl | hold
      · cases hshown : shown.bind (state.issued[·]?) with
        | none => simp [hshown, joinAllowed, hsecret] at hallowed
        | some token =>
          simp only [hshown, joinAllowed, hsecret, decide_false, Bool.false_or,
            Bool.and_eq_true, decide_eq_true_eq, Option.any_eq_true] at hallowed
          obtain ⟨index, _, hindex⟩ := Option.bind_eq_some_iff.mp hshown
          obtain ⟨⟨claims, hclaims, hroom, huser⟩, _⟩ := hallowed
          rw [hdecode _ _ _ _ hclaims] at hroom huser
          exact ⟨token, mem_of_getElem? hindex, rfl, hroom, huser⟩
      · exact h.admissions admission hold
    · cases hstep
      exact h

/-- **Confinement.**  Where the call service has its secret and every token that is asked for
    names the group of its room, each peer that was ever admitted to a room showed a token for
    itself and the room, and was, when that token was issued, a member of the group for which
    the room was initiated. -/
theorem call_room_confined (config : Config) (members : String → String → Bool)
    (actions : List Action) (final : State) (hdecode : Authentic decode)
    (hsecret : config.callSecret ≠ "")
    (hok : EachStep (step decode config) namesItsGroup (.start members) actions)
    (hrun : run (step decode config) (.start members) actions = some final) :
    ∀ admission ∈ final.admitted, ∃ token ∈ final.issued, admission.roomToken = some token ∧
      token.claims.roomId = admission.roomId ∧ token.claims.sub = admission.peerId.userId ∧
      ∀ groupId, (admission.roomId, groupId) ∈ final.initiated → token.memberOf groupId = true := by
  have hstart : Confined (.start members) := ⟨by simp [State.start], by simp [State.start],
    by simp [State.start]⟩
  have h : Confined final := run_invariant (fun h hok hstep => h.step hdecode hsecret hok hstep)
    hstart hok hrun
  intro admission hadmission
  obtain ⟨token, htoken, hshown, hroom, huser⟩ := h.admissions admission hadmission
  refine ⟨token, htoken, hshown, hroom, huser, fun groupId hentry => ?_⟩
  obtain ⟨hmember, hgroup⟩ := h.bound token htoken
  rw [hgroup groupId (hroom ▸ hentry)]
  exact hmember

def sharedSecret : Config := ⟨some "s", "s"⟩

/-- The signature is checked, and an expiry is accepted for another minute. -/
def decodeToken (secret : String) (clock : Nat) (token : RoomToken) : Option RoomClaims :=
  if token.secret = secret ∧ clock ≤ token.exp + 60 then some token.claims else none

theorem authentic_decodeToken : Authentic decodeToken := by
  intro secret clock token claims h
  exact (Option.some.inj (Option.ite_none_right_eq_some.mp h).2).symm

/-- ada and bob are members of `g` only, mallory of `h` only. -/
def twoGroups (groupId userId : String) : Bool :=
  (groupId = "g" && (userId = "ada" || userId = "bob")) || (groupId = "h" && userId = "mallory")

/-- A second member asks for a token for the room of the first, and joins with it. -/
def memberJoins : List Action :=
  [.initiateCall "ada" "g" "room", .join ⟨"ada", 0⟩ "room" (some 0),
    .requestRoomToken "bob" "g" "room", .join ⟨"bob", 1⟩ "room" (some 0)]

theorem call_room_confined_memberJoins :
    ∃ final, run (step decodeToken sharedSecret) (.start twoGroups) memberJoins = some final ∧
      final.admitted.length = 2 ∧
      ∀ admission ∈ final.admitted, ∃ token ∈ final.issued, admission.roomToken = some token ∧
        token.claims.roomId = admission.roomId ∧ token.claims.sub = admission.peerId.userId ∧
        ∀ groupId, (admission.roomId, groupId) ∈ final.initiated →
          token.memberOf groupId = true := by
  refine ⟨_, rfl, rfl, call_room_confined sharedSecret twoGroups memberJoins _
    authentic_decodeToken (by decide) ?_ rfl⟩
  refine .cons trivial rfl (.cons trivial rfl (.cons ?_ rfl (.cons trivial rfl trivial)))
  intro id hentry
  exact congrArg Prod.snd (mem_singleton.mp hentry)

/-- A member of another group asks for a token for the room, and is admitted. -/
theorem admitted_from_another_group :
    (run (step decodeToken sharedSecret) (.start twoGroups)
      [.initiateCall "ada" "g" "room", .requestRoomToken "mallory" "h" "room",
        .join ⟨"mallory", 0⟩ "room" (some 0)]).map
      (fun final => (final.initiated, final.admitted.map fun admission =>
        (admission.peerId.userId, admission.roomId, admission.roomToken.map (·.memberOf "g")))) =
    some ([("room", "g")], [("mallory", "room", some false)]) := by
  rfl

end MinesApp.CallRooms
