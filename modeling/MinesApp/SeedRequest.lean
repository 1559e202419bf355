import MinesApp.OrderedMap
import MinesApp.SeedStability

/-!
# Answers to seed requests

A member who lacks a seed asks one other member for it, on the distribution group of the
community or of the private salon; the answer is a bundle of seeds sent on that group
(`graine/frameHandler.ts`).  A request names sessions by id, or asks for all that is held of the
community.  The store holds the sessions of every community and salon together.

What is stored may change between two reads of the store, so the `moment`-th read sees the
table `tables moment`.  The server's answer about history floors may fail.
-/

namespace MinesApp.SeedRequest

open GraineSession List StoredGraineSession

/-! ## 1. Scopes and frames -/

inductive DistributionScope where
  | workspace (workspaceId : String)
  | channel (workspaceId channelId : String)
deriving DecidableEq, Repr

def DistributionScope.workspaceId : DistributionScope → String
  | .workspace workspaceId => workspaceId
  | .channel workspaceId _ => workspaceId

/-- What `routeDistributionFrame` hands over, with the scope its group is registered for. -/
structure DistributionFrame where
  scope : DistributionScope
  groupId : String
  sender : String
deriving DecidableEq, Repr

def DistributionFrame.workspaceId (frame : DistributionFrame) : String := frame.scope.workspaceId

inductive GraineRequestKind where
  | unspecified
  | sessions
  | history
deriving DecidableEq, Repr

structure GraineRequest where
  kind : GraineRequestKind
  sessionIds : List String
  answererUserId : String
  requestId : String
deriving DecidableEq, Repr

inductive GraineHistoryVisibility where
  | shared
  | joined
deriving DecidableEq, Repr

structure WireSeed where
  channelId : String
  sessionId : String
  seed : List UInt8
  firstIndex : Nat
  createdAt : Int
deriving DecidableEq, Repr

structure GatheredSeeds where
  seeds : List WireSeed
  missing : List String
  truncated : Bool
deriving DecidableEq, Repr

/-- The bundle and the group it is sent on; `durable` is `DELIVERY.keyMaterial`, as against
    `DELIVERY.transport`. -/
structure Answer where
  groupId : String
  workspaceId : String
  requestId : String
  seeds : List WireSeed
  missingSessionIds : List String
  truncated : Bool
  durable : Bool
deriving DecidableEq, Repr

def graineHistoryBundleMaxSeeds : Nat := 8000

/-- What a device answers with: its user, the rules it has learned, and what belongs to the
    platform and to the server.  `graineHistoryFloor channelId userId sessionIds` is `none` when
    the call fails. -/
structure Runtime where
  userId : String
  historyVisibility : String → Option GraineHistoryVisibility
  toLowerCase : String → String
  fromBase64 : String → List UInt8
  localeLe : String → String → Bool
  readable : String → Bool
  graineHistoryFloor : String → String → List String → Option (String → Option Nat)

/-! ## 2. Gathering -/

/-- Unknown communities are taken as `joined`. -/
def historyVisibilityFor (runtime : Runtime) (workspaceId : String) : GraineHistoryVisibility :=
  (runtime.historyVisibility workspaceId).getD .joined

def toWireSeed (runtime : Runtime) (held : StoredGraineSession) : WireSeed :=
  ⟨held.channelId, held.sessionId, runtime.fromBase64 held.seedB64, held.firstIndex, held.createdAt⟩

/-- `getGraineSessionsForWorkspace`, newest first. -/
def getGraineSessionsForWorkspace (runtime : Runtime) (table : GraineTable)
    (workspaceId : String) : List StoredGraineSession :=
  (table.rows.filter fun row =>
    row.workspaceId = workspaceId && runtime.readable row.sessionId).insertionSort
      (byNewestSession runtime.localeLe · ·)

/-- The loop over the named ids: the sessions held, and the ids that are not. -/
def readSessions (runtime : Runtime) (tables : Nat → GraineTable) :
    Nat → List String → List StoredGraineSession × List String
  | _, [] => ([], [])
  | moment, sessionId :: rest =>
    let (held, missing) := readSessions runtime tables (moment + 1) rest
    match (tables moment).getGraineSession sessionId runtime.readable with
    | none => (held, sessionId :: missing)
    | some session => (session :: held, missing)

/-- The session ids asked for in each channel, in the order the channels are met. -/
def byChannel (held : List StoredGraineSession) : OrderedMap String (List StoredGraineSession) :=
  OrderedMap.groupBy channelId held

/-- The calls to the server one after the other; a later answer replaces an earlier one. -/
def askFloors (runtime : Runtime) (forUserId : String) :
    List (String × List StoredGraineSession) → (String → Option Nat) → Option (String → Option Nat)
  | [], floors => some floors
  | (channelId, sessions) :: rest, floors =>
    match runtime.graineHistoryFloor channelId forUserId (sessions.map sessionId) with
    | none => none
    | some answer =>
      askFloors runtime forUserId rest fun sessionId => (answer sessionId).or (floors sessionId)

section

variable (runtime : Runtime) (tables : Nat → GraineTable) (frame : DistributionFrame)
  (request : GraineRequest)

def historyFloorsFor (held : List StoredGraineSession) (forUserId : String) :
    Option (String → Option Nat) :=
  askFloors runtime forUserId (byChannel held).entries fun _ => none

/-- A session without a floor is withheld; otherwise its floor is raised, never lowered. -/
def raiseFloor (floors : String → Option Nat) (session : StoredGraineSession) : Option WireSeed :=
  (floors session.sessionId).map fun floor =>
    toWireSeed runtime { session with firstIndex := max session.firstIndex floor }

def gatherNamedSessions : Option GatheredSeeds :=
  let wanted := request.sessionIds.filter (· ≠ "")
  let truncated : Bool := graineHistoryBundleMaxSeeds < wanted.length
  let (held, missing) := readSessions runtime tables 0 (wanted.take graineHistoryBundleMaxSeeds)
  match historyVisibilityFor runtime frame.workspaceId with
  | .shared => some ⟨held.map (toWireSeed runtime), missing, truncated⟩
  | .joined =>
    (historyFloorsFor runtime held frame.sender).map fun floors =>
      ⟨held.filterMap (raiseFloor runtime floors), missing, truncated⟩

def gatherCommunityHistory : Option GatheredSeeds :=
  match historyVisibilityFor runtime frame.workspaceId with
  | .joined => none
  | .shared =>
    let held := getGraineSessionsForWorkspace runtime (tables 0) frame.workspaceId
    some ⟨(held.take graineHistoryBundleMaxSeeds).map (toWireSeed runtime), [],
      graineHistoryBundleMaxSeeds < held.length⟩

def gather : Option GatheredSeeds :=
  match request.kind with
  | .unspecified => none
  | .sessions => gatherNamedSessions runtime tables frame request
  | .history => gatherCommunityHistory runtime tables frame

def answerSeedRequest : Option Answer :=
  if runtime.toLowerCase request.answererUserId ≠ runtime.userId then none
  else
    match gather runtime tables frame request with
    | none => none
    | some gathered =>
      if gathered.seeds = [] ∧ gathered.missing = [] then none
      else
        some ⟨frame.groupId, frame.workspaceId, request.requestId, gathered.seeds,
          gathered.missing, gathered.truncated, gathered.seeds ≠ []⟩

end

/-! ## 3. The seeds of an answer -/

section

variable (runtime : Runtime) (tables : Nat → GraineTable) (frame : DistributionFrame)
  (request : GraineRequest)

/-- The sessions that a request names: each id within the bound is looked up at its own turn. -/
def named : List StoredGraineSession :=
  ((request.sessionIds.filter (· ≠ "")).take graineHistoryBundleMaxSeeds).zipIdx.filterMap
    fun (sessionId, moment) => (tables moment).getGraineSession sessionId runtime.readable

/-- The server's answer about the sessions of one channel. -/
def floorCall (forUserId : String) (asked : String × List StoredGraineSession) :
    Option (String → Option Nat) :=
  runtime.graineHistoryFloor asked.1 forUserId (asked.2.map sessionId)

/-- The floor of a session in the answers: that of the last channel asked which has one. -/
def answeredFloor (forUserId : String) (asked : List (String × List StoredGraineSession))
    (sessionId : String) : Option Nat :=
  asked.reverse.findSome? fun channel => (floorCall runtime forUserId channel).bind (· sessionId)

/-- A community that shares its past opens a named session as it is held.  Otherwise the server
    has to answer for the channel of every named session, and to give this one a floor. -/
def OpensFrom (session : StoredGraineSession) (floor : Nat) : Prop :=
  let asked := (byChannel (named runtime tables request)).entries
  match historyVisibilityFor runtime frame.workspaceId with
  | .shared => floor = 0
  | .joined => (∀ channel ∈ asked, floorCall runtime frame.sender channel ≠ none) ∧
      answeredFloor runtime frame.sender asked session.sessionId = some floor

/-- The request asks this device for `session`, which it holds, and the rule of the community
    opens it from `floor` on. -/
def Sends (session : StoredGraineSession) (floor : Nat) : Prop :=
  runtime.toLowerCase request.answererUserId = runtime.userId ∧
    match request.kind with
    | .unspecified => False
    | .sessions => session ∈ named runtime tables request ∧
        OpensFrom runtime tables frame request session floor
    | .history => historyVisibilityFor runtime frame.workspaceId = .shared ∧ floor = 0 ∧
        session ∈ (getGraineSessionsForWorkspace runtime (tables 0) frame.workspaceId).take
          graineHistoryBundleMaxSeeds

/-- The seed of a session, opened from `floor` or from where it is held, whichever is later. -/
def seedFrom (session : StoredGraineSession) (floor : Nat) : WireSeed :=
  toWireSeed runtime { session with firstIndex := max session.firstIndex floor }

end

variable {runtime : Runtime} {tables : Nat → GraineTable} {seed : WireSeed}
  {frame : DistributionFrame} {request : GraineRequest}

theorem seedFrom_zero (session : StoredGraineSession) :
    seedFrom runtime session 0 = toWireSeed runtime session := by
  simp [seedFrom]

theorem readSessions_fst (ids : List String) (moment : Nat) :
    (readSessions runtime tables moment ids).1 = (ids.zipIdx moment).filterMap
      fun (sessionId, moment) => (tables moment).getGraineSession sessionId runtime.readable := by
  induction ids generalizing moment with
  | nil => rfl
  | cons sessionId rest ih =>
    simp only [readSessions, zipIdx_cons, filterMap_cons, ← ih]
    cases (tables moment).getGraineSession sessionId runtime.readable <;> rfl

theorem askFloors_eq_some {forUserId : String} {asked : List (String × List StoredGraineSession)}
    {floors given : String → Option Nat} :
    askFloors runtime forUserId asked floors = some given ↔
      (∀ channel ∈ asked, floorCall runtime forUserId channel ≠ none) ∧
        given = fun sessionId =>
          (answeredFloor runtime forUserId asked sessionId).or (floors sessionId) := by
  induction asked generalizing floors with
  | nil => simp [askFloors, answeredFloor, eq_comm]
  | cons channel rest ih =>
    obtain ⟨channelId, sessions⟩ := channel
    cases hcall : runtime.graineHistoryFloor channelId forUserId (sessions.map sessionId) with
    | none => simp [askFloors, floorCall, hcall]
    | some answer =>
      simp [askFloors, floorCall, hcall, ih, answeredFloor, findSome?_append, Option.or_assoc]

theorem historyFloorsFor_eq_some {held : List StoredGraineSession} {forUserId : String}
    {floors : String → Option Nat} :
    historyFloorsFor runtime held forUserId = some floors ↔
      (∀ channel ∈ (byChannel held).entries, floorCall runtime forUserId channel ≠ none) ∧
        floors = answeredFloor runtime forUserId (byChannel held).entries := by
  simp only [historyFloorsFor, askFloors_eq_some, Option.or_none]

theorem mem_gatherNamedSessions :
    (∃ gathered, gatherNamedSessions runtime tables frame request = some gathered ∧
        seed ∈ gathered.seeds) ↔
      ∃ session floor, session ∈ named runtime tables request ∧
        OpensFrom runtime tables frame request session floor ∧
        seedFrom runtime session floor = seed := by
  simp only [gatherNamedSessions, readSessions_fst, OpensFrom]
  cases historyVisibilityFor runtime frame.workspaceId with
  | shared => simp [named, seedFrom_zero]
  | joined =>
    simp only [Option.map_eq_some_iff, historyFloorsFor_eq_some]
    constructor
    · rintro ⟨_, ⟨floors, ⟨hanswered, rfl⟩, rfl⟩, hseed⟩
      obtain ⟨session, hsession, hraised⟩ := mem_filterMap.mp hseed
      obtain ⟨floor, hfloor, rfl⟩ := Option.map_eq_some_iff.mp hraised
      exact ⟨session, floor, hsession, ⟨hanswered, hfloor⟩, rfl⟩
    · rintro ⟨session, floor, hsession, ⟨hanswered, hfloor⟩, rfl⟩
      exact ⟨_, ⟨_, ⟨hanswered, rfl⟩, rfl⟩,
        mem_filterMap.mpr ⟨session, hsession, Option.map_eq_some_iff.mpr ⟨floor, hfloor, rfl⟩⟩⟩

theorem mem_gatherCommunityHistory :
    (∃ gathered, gatherCommunityHistory runtime tables frame = some gathered ∧
        seed ∈ gathered.seeds) ↔
      ∃ session floor, (historyVisibilityFor runtime frame.workspaceId = .shared ∧ floor = 0 ∧
        session ∈ (getGraineSessionsForWorkspace runtime (tables 0) frame.workspaceId).take
          graineHistoryBundleMaxSeeds) ∧ seedFrom runtime session floor = seed := by
  unfold gatherCommunityHistory
  cases historyVisibilityFor runtime frame.workspaceId with
  | shared => simp [seedFrom_zero, -map_take]
  | joined => simp

theorem answerSeedRequest_eq_some {answer : Answer} :
    answerSeedRequest runtime tables frame request = some answer ↔
      runtime.toLowerCase request.answererUserId = runtime.userId ∧
      ∃ gathered, gather runtime tables frame request = some gathered ∧
        ¬(gathered.seeds = [] ∧ gathered.missing = []) ∧
        answer = ⟨frame.groupId, frame.workspaceId, request.requestId, gathered.seeds,
          gathered.missing, gathered.truncated, gathered.seeds ≠ []⟩ := by
  unfold answerSeedRequest
  by_cases hme : runtime.toLowerCase request.answererUserId = runtime.userId
  · cases gather runtime tables frame request with
    | none => simp [hme]
    | some gathered => simp [hme, eq_comm]
  · simp [hme]

theorem mem_named {session : StoredGraineSession} (h : session ∈ named runtime tables request) :
    ∃ moment, session ∈ (tables moment).rows := by
  obtain ⟨⟨_, moment⟩, -, hfound⟩ := mem_filterMap.mp h
  exact ⟨moment, mem_of_find?_eq_some hfound⟩

/-- **The seeds sent**, one for each session that the request has this device send. -/
theorem mem_answer_seeds :
    (∃ answer, answerSeedRequest runtime tables frame request = some answer ∧
        seed ∈ answer.seeds) ↔
      ∃ session floor, Sends runtime tables frame request session floor ∧
        seedFrom runtime session floor = seed := by
  have hanswer : (∃ answer, answerSeedRequest runtime tables frame request = some answer ∧
        seed ∈ answer.seeds) ↔ runtime.toLowerCase request.answererUserId = runtime.userId ∧
      ∃ gathered, gather runtime tables frame request = some gathered ∧ seed ∈ gathered.seeds := by
    constructor
    · rintro ⟨answer, h, hseed⟩
      obtain ⟨hme, gathered, hgather, -, rfl⟩ := answerSeedRequest_eq_some.mp h
      exact ⟨hme, gathered, hgather, hseed⟩
    · rintro ⟨hme, gathered, hgather, hseed⟩
      exact ⟨_, answerSeedRequest_eq_some.mpr ⟨hme, gathered, hgather,
        fun hnone => ne_nil_of_mem hseed hnone.1, rfl⟩, hseed⟩
  rw [hanswer]
  simp only [Sends, gather]
  cases request.kind with
  | unspecified => simp
  | sessions => simp [mem_gatherNamedSessions, and_assoc]
  | history => simp [mem_gatherCommunityHistory, and_assoc]

/-! ## 4. Results -/

/-- **Seeds and scopes.**  An answer goes to the group the request came on, and carries exactly
    the seeds of the sessions that `Sends` describes.  So all its seeds are of channels whose
    seeds go to that group if and only if all these sessions are. -/
theorem seeds_within_scope (scopeOf : String → DistributionScope) (runtime : Runtime)
    (tables : Nat → GraineTable) (frame : DistributionFrame) (request : GraineRequest) :
    (∀ answer, answerSeedRequest runtime tables frame request = some answer →
      answer.groupId = frame.groupId ∧ ∀ seed, seed ∈ answer.seeds ↔
        ∃ session floor, Sends runtime tables frame request session floor ∧
          seedFrom runtime session floor = seed) ∧
    ((∀ answer, answerSeedRequest runtime tables frame request = some answer →
        ∀ seed ∈ answer.seeds, scopeOf seed.channelId = frame.scope) ↔
      ∀ session floor, Sends runtime tables frame request session floor →
        scopeOf session.channelId = frame.scope) := by
  refine ⟨fun answer h => ⟨?_, fun seed => ?_⟩, fun hscope session floor hsends => ?_,
    fun hscope answer h seed hseed => ?_⟩
  · obtain ⟨-, _, -, -, rfl⟩ := answerSeedRequest_eq_some.mp h
    rfl
  · rw [← mem_answer_seeds]
    simp [h]
  · obtain ⟨answer, h, hseed⟩ := mem_answer_seeds.mpr ⟨session, floor, hsends, rfl⟩
    exact hscope answer h _ hseed
  · obtain ⟨session, floor, hsends, rfl⟩ := mem_answer_seeds.mp ⟨answer, h, hseed⟩
    exact hscope session floor hsends

/-- A device of the community `promo`, which shares its past. -/
def sampleRuntime : Runtime where
  userId := "ada"
  historyVisibility := fun _ => some .shared
  toLowerCase := fun text => text
  fromBase64 := fun _ => [1]
  localeLe := fun _ _ => true
  readable := fun _ => true
  graineHistoryFloor := fun _ _ _ => none

/-- The hall of `promo` is open to the community, its bureau is private, and `club` is another
    community. -/
def sampleScope (channelId : String) : DistributionScope :=
  if channelId = "bureau" then .channel "promo" "bureau"
  else if channelId = "hall" then .workspace "promo"
  else .workspace "club"

def sampleTable : GraineTable where
  rows := [⟨"promo", "hall", "s1", "ada", "AQ==", 0, 3, none, none⟩,
    ⟨"promo", "bureau", "s2", "ada", "AQ==", 0, 2, none, none⟩,
    ⟨"club", "bar", "s3", "ada", "AQ==", 0, 1, none, none⟩]
  keyed := by decide

def communityFrame : DistributionFrame := ⟨.workspace "promo", "group-promo", "eve"⟩

/-- A request for history carries the seed of the private bureau to the whole community, and a
    request that names a session of another community gets it. -/
theorem seeds_leave_their_scope :
    (answerSeedRequest sampleRuntime (fun _ => sampleTable) communityFrame
        ⟨.history, [], "ada", "r"⟩).map (fun answer =>
          (answer.groupId, answer.seeds.map WireSeed.channelId)) =
      some ("group-promo", ["hall", "bureau"]) ∧
    sampleScope "bureau" = .channel "promo" "bureau" ∧
    (answerSeedRequest sampleRuntime (fun _ => sampleTable) communityFrame
        ⟨.sessions, ["s3"], "ada", "r"⟩).map (fun answer =>
          (answer.groupId, answer.seeds.map WireSeed.channelId)) =
      some ("group-promo", ["bar"]) ∧
    sampleScope "bar" = .workspace "club" := by
  decide

end MinesApp.SeedRequest
