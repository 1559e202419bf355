import MinesApp.SeedRequest

/-!
# History floors

In a community whose history is visible from one's arrival on, a seed that spans a member's
arrival is handed over with its first index raised.  The server computes where to:
`getGraineHistoryFloors` takes, for each session named, the least index of its messages stored
in the channel since the member arrived (`channel.service.ts`), and withholds a session without
such a message.  The floor is a minimum over indices, chosen by time; it divides the session at
the arrival only as far as indices and times agree.

Times are those the server compares.  Session ids go through the query unchanged.
-/

namespace MinesApp.HistoryFloors

open GraineSession SeedRequest List Option Int

/-! ## 1. The server -/

structure ChannelMember where
  workspaceId : String
  userId : String
  createdAt : Int
deriving DecidableEq, Repr

structure ChannelMessage where
  channelId : String
  senderSessionId : Option String
  messageIndex : Option Nat
  createdAt : Int
deriving DecidableEq, Repr

open ChannelMessage

/-- `assertChannelReader channelId callerId` gives the community of the channel, or refuses. -/
structure Server where
  assertChannelReader : String → String → Except String String
  members : List ChannelMember
  messages : List ChannelMessage

def Server.arrivalOf (server : Server) (workspaceId userId : String) : Option Int :=
  (server.members.find? fun member =>
    member.workspaceId = workspaceId && member.userId = userId).map ChannelMember.createdAt

/-- The `WHERE` clause of the query, for the group of one session. -/
def readableSince (channelId : String) (sessionIds : List String) (arrival : Int)
    (sessionId : String) (message : ChannelMessage) : Bool :=
  message.channelId = channelId && message.senderSessionId = some sessionId &&
    sessionIds.contains sessionId && arrival ≤ message.createdAt

/-- `MIN(m."messageIndex")` of one group; a row without an index is not in it. -/
def floorOf (messages : List ChannelMessage) (channelId : String) (sessionIds : List String)
    (arrival : Int) (sessionId : String) : Option Nat :=
  ((messages.filter (readableSince channelId sessionIds arrival sessionId)).filterMap
    messageIndex).min?

def getGraineHistoryFloors (server : Server) (channelId callerId forUserId : String)
    (sessionIds : List String) : Except String (String → Option Nat) :=
  match server.assertChannelReader channelId callerId with
  | .error refusal => .error refusal
  | .ok workspaceId =>
    match server.arrivalOf workspaceId forUserId with
    | none => .error "That user is not a member of this community"
    | some arrival =>
      if sessionIds = [] then .ok fun _ => none
      else .ok (floorOf server.messages channelId sessionIds arrival)

/-- The call of a device: the controller lower-cases the member, and any refusal fails it. -/
def graineHistoryFloor (toLowerCase : String → String) (server : Server) (callerId : String)
    (channelId forUserId : String) (sessionIds : List String) : Option (String → Option Nat) :=
  (getGraineHistoryFloors server channelId callerId (toLowerCase forUserId) sessionIds).toOption

/-! ## 2. What a floor is -/

/-- The message is one of the session's. -/
def ChannelMessage.of (message : ChannelMessage) (sessionId : String) : Prop :=
  message.senderSessionId = some sessionId

section

variable {messages : List ChannelMessage} {channelId : String} {sessionIds : List String}
  {arrival : Int} {sessionId : String}

theorem mem_readableSince {message : ChannelMessage} :
    message ∈ messages.filter (readableSince channelId sessionIds arrival sessionId) ↔
      message ∈ messages ∧ message.channelId = channelId ∧ message.of sessionId ∧
        sessionId ∈ sessionIds ∧ arrival ≤ message.createdAt := by
  simp [readableSince, of, and_assoc]

theorem floorOf_eq_some {floor : Nat} :
    floorOf messages channelId sessionIds arrival sessionId = some floor ↔
      (∃ message ∈ messages, message.channelId = channelId ∧ message.of sessionId ∧
        sessionId ∈ sessionIds ∧ arrival ≤ message.createdAt ∧
        message.messageIndex = some floor) ∧
      ∀ message ∈ messages, message.channelId = channelId → message.of sessionId →
        sessionId ∈ sessionIds → arrival ≤ message.createdAt →
        ∀ index, message.messageIndex = some index → floor ≤ index := by
  unfold floorOf
  rw [min?_eq_some_iff]
  simp only [mem_filterMap, mem_readableSince]
  constructor
  · rintro ⟨⟨message, ⟨hmem, hchannel, hof, hid, hsince⟩, hindex⟩, hleast⟩
    refine ⟨⟨message, hmem, hchannel, hof, hid, hsince, hindex⟩, ?_⟩
    intro other hother hchannel hof hid hsince index hindex
    exact hleast index ⟨other, ⟨hother, hchannel, hof, hid, hsince⟩, hindex⟩
  · rintro ⟨⟨message, hmem, hchannel, hof, hid, hsince, hindex⟩, hleast⟩
    refine ⟨⟨message, ⟨hmem, hchannel, hof, hid, hsince⟩, hindex⟩, ?_⟩
    rintro index ⟨other, ⟨hother, hchannel, hof, hid, hsince⟩, hindex⟩
    exact hleast other hother hchannel hof hid hsince index hindex

theorem floorOf_eq_none :
    floorOf messages channelId sessionIds arrival sessionId = none ↔
      ∀ message ∈ messages, message.channelId = channelId → message.of sessionId →
        sessionId ∈ sessionIds → message.messageIndex ≠ none → message.createdAt < arrival := by
  unfold floorOf
  rw [min?_eq_none_iff, filterMap_eq_nil_iff]
  constructor
  · intro h message hmem hchannel hof hid hindex
    by_contra hsince
    exact hindex (h message (mem_readableSince.mpr ⟨hmem, hchannel, hof, hid, not_lt.mp hsince⟩))
  · intro h message hmem
    obtain ⟨hmem, hchannel, hof, hid, hsince⟩ := mem_readableSince.mp hmem
    by_contra hindex
    exact absurd (h message hmem hchannel hof hid hindex) (not_lt.mpr hsince)

/-- The floor of a session does not depend on what else is named. -/
theorem floorOf_singleton (hid : sessionId ∈ sessionIds) :
    floorOf messages channelId sessionIds arrival sessionId =
      floorOf messages channelId [sessionId] arrival sessionId := by
  have hsame : readableSince channelId sessionIds arrival sessionId =
      readableSince channelId [sessionId] arrival sessionId := by
    funext message
    simp [readableSince, hid]
  rw [floorOf, hsame, floorOf]

end

variable {server : Server} {channelId callerId forUserId : String}

theorem getGraineHistoryFloors_eq {workspaceId : String} {arrival : Int}
    (hreader : server.assertChannelReader channelId callerId = .ok workspaceId)
    (harrival : server.arrivalOf workspaceId forUserId = some arrival) (sessionIds : List String) :
    getGraineHistoryFloors server channelId callerId forUserId sessionIds =
      .ok (floorOf server.messages channelId sessionIds arrival) := by
  simp only [getGraineHistoryFloors, hreader, harrival]
  split
  next hempty =>
    subst hempty
    congr 1
    funext sessionId
    refine (floorOf_eq_none.mpr ?_).symm
    intro _ _ _ _ hid
    cases hid
  · rfl

/-- A call that succeeds was made by a reader of the channel, for a member of its community. -/
theorem graineHistoryFloor_eq_some {toLowerCase : String → String} {sessionIds : List String}
    {floors : String → Option Nat}
    (h : graineHistoryFloor toLowerCase server callerId channelId forUserId sessionIds =
      some floors) :
    ∃ workspaceId arrival, server.assertChannelReader channelId callerId = .ok workspaceId ∧
      server.arrivalOf workspaceId (toLowerCase forUserId) = some arrival ∧
      floors = floorOf server.messages channelId sessionIds arrival := by
  unfold graineHistoryFloor at h
  cases hreader : server.assertChannelReader channelId callerId with
  | error refusal => simp [getGraineHistoryFloors, hreader, Except.toOption] at h
  | ok workspaceId =>
    cases harrival : server.arrivalOf workspaceId (toLowerCase forUserId) with
    | none => simp [getGraineHistoryFloors, hreader, harrival, Except.toOption] at h
    | some arrival =>
      rw [getGraineHistoryFloors_eq hreader harrival] at h
      exact ⟨workspaceId, arrival, rfl, harrival, (some.inj h).symm⟩

/-! ## 3. The floor and the arrival -/

section

variable (messages : List ChannelMessage) (channelId : String) (sessionIds : List String)
  (arrival : Int)

/-- Nothing of a named session older than the arrival has an index as high as one stored in the
    channel since. -/
def IndexedInTime : Prop :=
  ∀ sessionId ∈ sessionIds, ∀ old ∈ messages, ∀ new ∈ messages, old.of sessionId →
    new.of sessionId → new.channelId = channelId → old.createdAt < arrival →
    arrival ≤ new.createdAt → ∀ index index', old.messageIndex = some index →
      new.messageIndex = some index' → index < index'

/-- A named session with a message since the arrival has one in the channel, with an index. -/
def IndexedHere : Prop :=
  ∀ sessionId ∈ sessionIds, (∃ message ∈ messages, message.of sessionId ∧
    arrival ≤ message.createdAt) → ∃ message ∈ messages, message.of sessionId ∧
      arrival ≤ message.createdAt ∧ message.channelId = channelId ∧ message.messageIndex ≠ none

end

section

variable {messages : List ChannelMessage} {channelId : String} {sessionIds : List String}
  {arrival : Int}

/-- Nothing at or above a floor is older than the arrival exactly if indices follow time. -/
theorem floors_divide_iff :
    (∀ sessionId floor, floorOf messages channelId sessionIds arrival sessionId = some floor →
      ∀ message ∈ messages, message.of sessionId →
        ∀ index, message.messageIndex = some index → floor ≤ index →
        arrival ≤ message.createdAt) ↔
      IndexedInTime messages channelId sessionIds arrival := by
  constructor
  · intro h sessionId hid old hold new hnew hof hof' hchannel hbefore hsince index index' hindex
      hindex'
    -- the floor is at most the later message's index, so the older one lies below it
    by_contra hnot
    cases hfloor : floorOf messages channelId sessionIds arrival sessionId with
    | none =>
      have hlt := floorOf_eq_none.mp hfloor new hnew hchannel hof' hid (by simp [hindex'])
      omega
    | some floor =>
      have hle := (floorOf_eq_some.mp hfloor).2 new hnew hchannel hof' hid hsince index' hindex'
      have hsound := h sessionId floor hfloor old hold hof index hindex (by omega)
      omega
  · intro h sessionId floor hfloor message hmem hof index hindex hle
    obtain ⟨⟨new, hnew, hchannel, hof', hid, hsince, hindex'⟩, -⟩ := floorOf_eq_some.mp hfloor
    by_contra hbefore
    have hlt := h sessionId hid message hmem new hnew hof hof' hchannel (not_le.mp hbefore)
      hsince index floor hindex hindex'
    omega

/-- A named session without a floor has nothing since the arrival exactly if what it has since
    is, in part, in the channel and indexed. -/
theorem no_floor_iff :
    (∀ sessionId ∈ sessionIds, floorOf messages channelId sessionIds arrival sessionId = none →
      ∀ message ∈ messages, message.of sessionId → message.createdAt < arrival) ↔
      IndexedHere messages channelId sessionIds arrival := by
  constructor
  · rintro h sessionId hid ⟨message, hmem, hof, hsince⟩
    by_contra hnone
    refine absurd (h sessionId hid (floorOf_eq_none.mpr ?_) message hmem hof) (not_lt.mpr hsince)
    intro other hother hchannel hof' _ hindex
    by_contra hlater
    exact hnone ⟨other, hother, hof', not_lt.mp hlater, hchannel, hindex⟩
  · intro h sessionId hid hfloor message hmem hof
    by_contra hlater
    obtain ⟨other, hother, hof', hsince, hchannel, hindex⟩ :=
      h sessionId hid ⟨message, hmem, hof, not_lt.mp hlater⟩
    exact absurd (floorOf_eq_none.mp hfloor other hother hchannel hof' hid hindex)
      (not_lt.mpr hsince)

end

/-! ## 4. The seed that is handed over -/

/-- The seed derives the key of the message. -/
def Opens (seed : WireSeed) (message : ChannelMessage) : Prop :=
  message.of seed.sessionId ∧ ∃ index, message.messageIndex = some index ∧ seed.firstIndex ≤ index

/-- A session id keeps its channel from one read of the store to the next. -/
def ChannelsKept (tables : Nat → GraineTable) : Prop :=
  ∀ first second, ∀ row ∈ (tables first).rows, ∀ row' ∈ (tables second).rows,
    row.sessionId = row'.sessionId → row.channelId = row'.channelId

variable {runtime : Runtime} {forUserId : String} {floors : String → Option Nat} {floor : Nat}
  {held : List StoredGraineSession} {server : Server} {tables : Nat → GraineTable}

theorem mem_byChannel {sessions : List StoredGraineSession}
    (h : (channelId, sessions) ∈ (byChannel held).entries) :
    ∀ session ∈ sessions, session ∈ held ∧ session.channelId = channelId := by
  have hget := OrderedMap.mem_entries.mp h
  rw [byChannel, OrderedMap.get?_groupBy] at hget
  split at hget
  · cases hget
  · cases hget
    intro session hsession
    obtain ⟨hheld, hchannel⟩ := mem_filter.mp hsession
    exact ⟨hheld, by simpa using hchannel⟩

/-- The floor at which a session is handed over is drawn in a channel of a stored session of
    the same id, which is its own if ids keep their channels. -/
theorem floor_of_asked_channel (hserver : runtime.graineHistoryFloor =
      graineHistoryFloor runtime.toLowerCase server runtime.userId)
    (hheld : ∀ session ∈ held, ∃ moment, session ∈ (tables moment).rows)
    (h : historyFloorsFor runtime held forUserId = some floors) {session : StoredGraineSession}
    (hsession : session ∈ held) (hfloor : floors session.sessionId = some floor) :
    ∃ channelId workspaceId arrival, (ChannelsKept tables → channelId = session.channelId) ∧
      server.assertChannelReader channelId runtime.userId = .ok workspaceId ∧
      server.arrivalOf workspaceId (runtime.toLowerCase forUserId) = some arrival ∧
      floorOf server.messages channelId [session.sessionId] arrival session.sessionId =
        some floor := by
  obtain ⟨-, rfl⟩ := historyFloorsFor_eq_some.mp h
  obtain ⟨⟨channelId, sessions⟩, hasked, hanswer⟩ := exists_of_findSome?_eq_some hfloor
  obtain ⟨answer, hcall, hsome⟩ := bind_eq_some_iff.mp hanswer
  rw [floorCall, hserver] at hcall
  obtain ⟨workspaceId, arrival, hreader, harrival, rfl⟩ := graineHistoryFloor_eq_some hcall
  obtain ⟨⟨-, -, -, -, hid, -⟩, -⟩ := floorOf_eq_some.mp hsome
  refine ⟨channelId, workspaceId, arrival, ?_, hreader, harrival,
    (floorOf_singleton hid).symm.trans hsome⟩
  intro hkept
  obtain ⟨other, hother, hsame⟩ := mem_map.mp hid
  obtain ⟨hotherHeld, hchannel⟩ := mem_byChannel (mem_reverse.mp hasked) other hother
  obtain ⟨first, hotherRow⟩ := hheld other hotherHeld
  obtain ⟨second, hrow⟩ := hheld session hsession
  rw [← hchannel]
  exact hkept first second other hotherRow session hrow hsame

/-- Where indices follow time in the channel asked about, a seed handed over under `joined` opens
    nothing older than the arrival. -/
theorem handed_seed_opens_since
    {frame : DistributionFrame} {request : GraineRequest} {gathered : GatheredSeeds}
    (hserver : runtime.graineHistoryFloor =
      graineHistoryFloor runtime.toLowerCase server runtime.userId)
    (hjoined : historyVisibilityFor runtime frame.workspaceId = .joined)
    (h : gatherNamedSessions runtime tables frame request = some gathered) {seed : WireSeed}
    (hseed : seed ∈ gathered.seeds) :
    ∃ channelId workspaceId arrival, (ChannelsKept tables → channelId = seed.channelId) ∧
      server.assertChannelReader channelId runtime.userId = .ok workspaceId ∧
      server.arrivalOf workspaceId (runtime.toLowerCase frame.sender) = some arrival ∧
      (IndexedInTime server.messages channelId [seed.sessionId] arrival →
        ∀ message ∈ server.messages, Opens seed message → arrival ≤ message.createdAt) := by
  simp only [gatherNamedSessions, hjoined, readSessions_fst] at h
  obtain ⟨floors, hfloors, rfl⟩ := map_eq_some_iff.mp h
  obtain ⟨session, hsession, hraised⟩ := mem_filterMap.mp hseed
  obtain ⟨floor, hfloor, rfl⟩ := map_eq_some_iff.mp hraised
  obtain ⟨channelId, workspaceId, arrival, hown, hreader, harrival, hdrawn⟩ :=
    floor_of_asked_channel hserver (fun _ => mem_named) hfloors hsession hfloor
  refine ⟨channelId, workspaceId, arrival, hown, hreader, harrival, ?_⟩
  rintro hordered message hmem ⟨hof, index, hindex, hle⟩
  have hraise : floor ≤ index := le_trans (le_max_right _ _) hle
  exact floors_divide_iff.mpr hordered session.sessionId floor hdrawn message hmem hof index hindex
    hraise

/-! ## 5. Results -/

/-- **History floors.**  The floors divide the sessions at the arrival, with nothing older at or
    above a floor and nothing since in a session without one, exactly if indices follow time
    across the arrival and what a session has since is indexed in the channel.  And where
    indices follow time, a seed handed over at its floor opens no message older than the
    arrival; the channel whose arrival and messages draw the floor is the seed's own, unless the
    store gave the session another one between two reads. -/
theorem history_floors_sound_iff {server : Server} {channelId callerId forUserId : String}
    {workspaceId : String} {arrival : Int} {sessionIds : List String}
    (hreader : server.assertChannelReader channelId callerId = .ok workspaceId)
    (harrival : server.arrivalOf workspaceId forUserId = some arrival) :
    (∃ floors, getGraineHistoryFloors server channelId callerId forUserId sessionIds = .ok floors ∧
      (((∀ sessionId floor, floors sessionId = some floor → ∀ message ∈ server.messages,
          message.of sessionId → ∀ index, message.messageIndex = some index → floor ≤ index →
          arrival ≤ message.createdAt) ∧
        ∀ sessionId ∈ sessionIds, floors sessionId = none → ∀ message ∈ server.messages,
          message.of sessionId → message.createdAt < arrival) ↔
        IndexedInTime server.messages channelId sessionIds arrival ∧
          IndexedHere server.messages channelId sessionIds arrival)) ∧
    ∀ (runtime : Runtime) (tables : Nat → GraineTable) (frame : DistributionFrame)
      (request : GraineRequest) (gathered : GatheredSeeds),
      runtime.graineHistoryFloor = graineHistoryFloor runtime.toLowerCase server runtime.userId →
      historyVisibilityFor runtime frame.workspaceId = .joined →
      gatherNamedSessions runtime tables frame request = some gathered →
      ∀ seed ∈ gathered.seeds, ∃ asked community since,
        (ChannelsKept tables → asked = seed.channelId) ∧
        server.assertChannelReader asked runtime.userId = .ok community ∧
        server.arrivalOf community (runtime.toLowerCase frame.sender) = some since ∧
        (IndexedInTime server.messages asked [seed.sessionId] since →
          ∀ message ∈ server.messages, Opens seed message → since ≤ message.createdAt) := by
  constructor
  · refine ⟨_, getGraineHistoryFloors_eq hreader harrival sessionIds, ?_⟩
    exact and_congr floors_divide_iff no_floor_iff
  · intro runtime tables frame request gathered hserver hjoined hgathered seed hseed
    exact handed_seed_opens_since hserver hjoined hgathered hseed

/-- A server with one channel, whose member `bob` arrived at 20. -/
def sampleServer (messages : List ChannelMessage) : Server where
  assertChannelReader := fun _ _ => .ok "promo"
  members := [⟨"promo", "bob", 20⟩]
  messages

/-- The messages of one session, stored in the order of their indices. -/
def inOrder : List ChannelMessage :=
  [⟨"hall", some "s", some 3, 10⟩, ⟨"hall", some "s", some 4, 25⟩]

theorem history_floors_in_order :
    ∃ floors, getGraineHistoryFloors (sampleServer inOrder) "hall" "ada" "bob" ["s"] = .ok floors ∧
      floors "s" = some 4 ∧
      ∀ sessionId floor, floors sessionId = some floor → ∀ message ∈ inOrder,
        message.of sessionId → ∀ index, message.messageIndex = some index → floor ≤ index →
        20 ≤ message.createdAt := by
  have hreader : (sampleServer inOrder).assertChannelReader "hall" "ada" = .ok "promo" := rfl
  have harrival : (sampleServer inOrder).arrivalOf "promo" "bob" = some 20 := by decide
  obtain ⟨⟨floors, hfloors, hsound⟩, -⟩ :=
    @history_floors_sound_iff (sampleServer inOrder) "hall" "ada" "bob" "promo" 20 ["s"] hreader
      harrival
  have hin : IndexedInTime inOrder "hall" ["s"] 20 ∧ IndexedHere inOrder "hall" ["s"] 20 := by
    constructor
    · simp [IndexedInTime, inOrder, of]
    · simp [IndexedHere, inOrder, of]
  refine ⟨floors, hfloors, ?_, (hsound.mpr hin).1⟩
  cases hfloors
  decide

/-- Message 5 was stored before the arrival and message 3, whose place was reserved earlier,
    after it. -/
def outOfOrder : List ChannelMessage :=
  [⟨"hall", some "s", some 5, 10⟩, ⟨"hall", some "s", some 3, 25⟩]

/-- The floor is 3, and a seed handed over from there opens message 5. -/
theorem floor_opens_older_message :
    ∃ floors, getGraineHistoryFloors (sampleServer outOfOrder) "hall" "ada" "bob" ["s"] =
        .ok floors ∧ floors "s" = some 3 ∧
      ∃ message ∈ outOfOrder, Opens ⟨"hall", "s", [], 3, 0⟩ message ∧ message.createdAt < 20 :=
  ⟨_, rfl, by decide, ⟨"hall", some "s", some 5, 10⟩, mem_cons_self,
    ⟨rfl, 5, rfl, by decide⟩, by decide⟩

end MinesApp.HistoryFloors
