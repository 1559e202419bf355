import MinesApp.SendRatchetLedger

/-!
# Swapping the live client

Key packages are generated, and a history page is decrypted, by a worker on a copy of the MLS
client; the state the worker returns is then rebuilt and installed over the live client
(`WebMlsService.ts`).  A send takes no lock, so the live ratchet may move meanwhile.  Two
checks stand before the installation.  `installUnlessOvertaken` compares `liveMutations` with
its value at the snapshot and discards the state when a send was counted in between;
`swapClientMonotonic` refuses a candidate in which a group of the live client is absent or at
a lower epoch.  The candidate is rebuilt asynchronously between the two.

One swap is under way at a time, both callers holding the MLS mutex, and so is no commit.  A
send counts itself one await after its encryption.
-/

namespace MinesApp.ClientSwap

open TransitionSystem List OrderedMap Option
open SendRatchetLedger (Ratchet Frame)

/-! ## 1. Clients -/

/-- The send ratchets of a client, by group. -/
abbrev Client (Group : Type) := OrderedMap Group Ratchet

section

variable {Group : Type} [DecidableEq Group]

section

variable (client : Client Group) (groupId : Group)

def encryptForSend : Option (Client Group × Frame Group) :=
  (client.get? groupId).map fun ratchet =>
    (client.set groupId { ratchet with generation := ratchet.generation + 1 },
     ⟨groupId, ratchet.epoch, ratchet.generation⟩)

/-- A commit is merged or processed: the ratchet of the next epoch starts at zero. -/
def advanceEpoch : Option (Client Group) :=
  (client.get? groupId).map fun ratchet => client.set groupId ⟨ratchet.epoch + 1, 0⟩

/-- `create_group` refuses a group that is there. -/
def createGroup : Option (Client Group) :=
  match client.get? groupId with
  | some _ => none
  | none => some (client.set groupId ⟨0, 0⟩)

end

/-- Whether the candidate is to replace the live client. -/
def swapClientMonotonic (live candidate : Client Group) : Bool :=
  live.keys.all fun groupId =>
    match live.get? groupId, candidate.get? groupId with
    | some current, some other => current.epoch ≤ other.epoch
    | some _, none => false
    | none, _ => true

/-- The generation the frame took is behind the ratchet of its group. -/
def Spent (client : Client Group) (frame : Frame Group) : Prop :=
  ∃ ratchet, client.get? frame.groupId = some ratchet ∧ (frame.epoch < ratchet.epoch ∨
      frame.epoch = ratchet.epoch ∧ frame.generation < ratchet.generation)

variable {client next : Client Group} {frame : Frame Group} {groupId : Group}

/-- A ratchet that only moves forward keeps what was spent. -/
theorem Spent.set (h : Spent client frame)
    {before after : Ratchet} (hbefore : client.get? groupId = some before)
    (hforward : before.epoch < after.epoch ∨
      before.epoch = after.epoch ∧ before.generation ≤ after.generation) :
    Spent (client.set groupId after) frame := by
  obtain ⟨ratchet, hratchet, hspent⟩ := h
  by_cases hgroup : frame.groupId = groupId
  · rw [hgroup] at hratchet
    cases hbefore.symm.trans hratchet
    refine ⟨after, by rw [hgroup, get?_set_self], ?_⟩
    omega
  · exact ⟨ratchet, by rw [get?_set_ne client hgroup, hratchet], hspent⟩

theorem spent_encryptForSend (h : encryptForSend client groupId = some (next, frame)) :
    ¬ Spent client frame ∧ Spent next frame ∧ ∀ other, Spent client other → Spent next other := by
  obtain ⟨ratchet, hratchet, hpair⟩ := map_eq_some_iff.mp h
  cases hpair
  refine ⟨?_, ?_, ?_⟩
  · rintro ⟨current, hcurrent, hspent⟩
    cases hratchet.symm.trans hcurrent
    simp at hspent
  · exact ⟨_, get?_set_self .., .inr ⟨rfl, Nat.lt_succ_self _⟩⟩
  · intro other hother
    exact hother.set hratchet (.inr ⟨rfl, Nat.le_succ _⟩)

theorem spent_advanceEpoch (h : advanceEpoch client groupId = some next)
    (hspent : Spent client frame) : Spent next frame := by
  obtain ⟨ratchet, hratchet, rfl⟩ := map_eq_some_iff.mp h
  exact hspent.set hratchet (.inl (Nat.lt_succ_self _))

theorem spent_createGroup (h : createGroup client groupId = some next)
    (hspent : Spent client frame) : Spent next frame := by
  unfold createGroup at h
  split at h
  · cases h
  next habsent =>
    cases h
    obtain ⟨ratchet, hratchet, hbehind⟩ := hspent
    have hgroup : frame.groupId ≠ groupId := by
      rintro rfl
      cases habsent.symm.trans hratchet
    exact ⟨ratchet, by rw [get?_set_ne client hgroup, hratchet], hbehind⟩

end

/-! ## 2. State and steps -/

/-- A swap has its worker running on a copy, or its candidate being rebuilt.  `before` is what
    had been spent when the copy was taken; no step reads it. -/
inductive Swap (Group : Type) where
  | idle
  | working (mutationsAtSnapshot : Nat) (copy : Client Group) (before : List (Frame Group))
  | rebuilding (candidate : Client Group)

structure State (Group : Type) where
  client : Client Group
  liveMutations : Nat
  swap : Swap Group
  -- frames encrypted whose send has not reached `noteLiveMutation`
  encrypted : List (Frame Group)
  -- every frame encrypted on a live client
  spent : List (Frame Group)

open State

def State.init {Group : Type} (client : Client Group) (liveMutations : Nat) : State Group :=
  ⟨client, liveMutations, .idle, [], []⟩

inductive Action (Group : Type) where
  | encryptForSend (groupId : Group)
  | noteLiveMutation (frame : Frame Group)
  | createGroup (groupId : Group)
  | commit (groupId : Group)
  | snapshot
  | workerCommit (groupId : Group)
  | workerFails
  | installUnlessOvertaken
  | rebuildFails
  | swapClientMonotonic
deriving DecidableEq, Repr

section

variable {Group : Type} [DecidableEq Group]

def step (state : State Group) : Action Group → Option (State Group)
  | .encryptForSend groupId =>
    (encryptForSend state.client groupId).map fun (client, frame) =>
      { state with
        client, encrypted := frame :: state.encrypted, spent := frame :: state.spent }
  | .noteLiveMutation frame =>
    if frame ∈ state.encrypted then
      some { state with
        liveMutations := state.liveMutations + 1
        encrypted := state.encrypted.erase frame }
    else none
  | .createGroup groupId =>
    (createGroup state.client groupId).map fun client => { state with client }
  -- a commit waits for the mutex
  | .commit groupId =>
    match state.swap with
    | .idle => (advanceEpoch state.client groupId).map fun client => { state with client }
    | _ => none
  | .snapshot =>
    match state.swap with
    | .idle => some { state with swap := .working state.liveMutations state.client state.spent }
    | _ => none
  -- the page that a catch-up decrypts holds a commit
  | .workerCommit groupId =>
    match state.swap with
    | .working mutationsAtSnapshot copy before =>
      (advanceEpoch copy groupId).map fun copy =>
        { state with swap := .working mutationsAtSnapshot copy before }
    | _ => none
  | .workerFails =>
    match state.swap with
    | .working _ _ _ => some { state with swap := .idle }
    | _ => none
  | .installUnlessOvertaken =>
    match state.swap with
    | .working mutationsAtSnapshot copy _ =>
      if (state.liveMutations : Int) - mutationsAtSnapshot > 0 then
        some { state with swap := .idle }
      else some { state with swap := .rebuilding copy }
    | _ => none
  | .rebuildFails =>
    match state.swap with
    | .rebuilding _ => some { state with swap := .idle }
    | _ => none
  | .swapClientMonotonic =>
    match state.swap with
    | .rebuilding candidate =>
      some { state with
        client := if swapClientMonotonic state.client candidate then candidate else state.client
        swap := .idle }
    | _ => none

/-- No frame escapes the comparison: none is encrypted while the candidate is rebuilt, and at
    the comparison every frame not counted yet was encrypted before the snapshot. -/
def Counted (state : State Group) : Action Group → Prop
  | .encryptForSend _ => ∀ candidate, state.swap ≠ .rebuilding candidate
  | .installUnlessOvertaken =>
    ∀ mutationsAtSnapshot copy before, state.swap = .working mutationsAtSnapshot copy before →
      ∀ frame ∈ state.encrypted, frame ∈ before
  | _ => True

end

/-! ## 3. The invariant -/

section Invariant

variable {Group : Type} [DecidableEq Group]

/-- What the swap under way would install has spent every frame, or a send that it misses has
    been counted or is still to be. -/
def SwapOk (state : State Group) : Prop :=
  match state.swap with
  | .idle => True
  | .working mutationsAtSnapshot copy before =>
    mutationsAtSnapshot ≤ state.liveMutations ∧ (∀ frame ∈ before, Spent copy frame) ∧
      ∀ frame ∈ state.spent, frame ∈ before ∨ frame ∈ state.encrypted ∨
        mutationsAtSnapshot < state.liveMutations
  | .rebuilding candidate => ∀ frame ∈ state.spent, Spent candidate frame

structure Inv (state : State Group) : Prop where
  spent : ∀ frame ∈ state.spent, Spent state.client frame
  nodup : state.spent.Nodup
  swap : SwapOk state

variable {state : State Group} {mutationsAtSnapshot : Nat} {copy : Client Group}
  {before : List (Frame Group)}

theorem Inv.init (client : Client Group) (liveMutations : Nat) :
    Inv (init client liveMutations) :=
  ⟨by simp [State.init], nodup_nil, trivial⟩

section

variable (h : SwapOk state)
include h

theorem SwapOk.working (hswap : state.swap = .working mutationsAtSnapshot copy before) :
    mutationsAtSnapshot ≤ state.liveMutations ∧ (∀ frame ∈ before, Spent copy frame) ∧
      ∀ frame ∈ state.spent, frame ∈ before ∨ frame ∈ state.encrypted ∨
        mutationsAtSnapshot < state.liveMutations := by
  rw [SwapOk, hswap] at h
  exact h

theorem SwapOk.rebuilding {candidate : Client Group} (hswap : state.swap = .rebuilding candidate) :
    ∀ frame ∈ state.spent, Spent candidate frame := by
  rw [SwapOk, hswap] at h
  exact h

theorem SwapOk.encrypt {groupId : Group}
    (hcounted : Counted state (.encryptForSend groupId)) (client : Client Group)
    (frame : Frame Group) : SwapOk { state with
      client, encrypted := frame :: state.encrypted, spent := frame :: state.spent } := by
  obtain ⟨live, liveMutations, swap, encrypted, spent⟩ := state
  cases swap with
  | idle => trivial
  | rebuilding candidate => exact absurd rfl (hcounted candidate)
  | working mutationsAtSnapshot copy before =>
    obtain ⟨hle, hbefore, hframes⟩ := h
    refine ⟨hle, hbefore, ?_⟩
    intro other hother
    rcases mem_cons.mp hother with rfl | hother
    · exact .inr (.inl mem_cons_self)
    · rcases hframes other hother with hold | hpending | hnoted
      · exact .inl hold
      · exact .inr (.inl (mem_cons_of_mem _ hpending))
      · exact .inr (.inr hnoted)

theorem SwapOk.note (encrypted : List (Frame Group)) :
    SwapOk { state with liveMutations := state.liveMutations + 1, encrypted } := by
  obtain ⟨live, liveMutations, swap, pending, spent⟩ := state
  cases swap with
  | idle => trivial
  | rebuilding candidate => exact h
  | working mutationsAtSnapshot copy before =>
    obtain ⟨hle, hbefore, -⟩ := h
    exact ⟨Nat.le_succ_of_le hle, hbefore, fun _ _ => .inr (.inr (Nat.lt_succ_of_le hle))⟩

/-- What passes the comparison has spent every frame. -/
theorem SwapOk.compare (hswap : state.swap = .working mutationsAtSnapshot copy before)
    (hcounted : Counted state .installUnlessOvertaken)
    (hsame : ¬ (state.liveMutations : Int) - mutationsAtSnapshot > 0) :
    ∀ frame ∈ state.spent, Spent copy frame := by
  obtain ⟨-, hbefore, hframes⟩ := h.working hswap
  intro frame hframe
  rcases hframes frame hframe with hold | hpending | hnoted
  · exact hbefore frame hold
  · exact hbefore frame (hcounted _ _ _ hswap frame hpending)
  · omega

end

protected theorem Inv.step {next : State Group} {action : Action Group} (h : Inv state)
    (hcounted : Counted state action) (hstep : step state action = some next) : Inv next := by
  cases action with simp only [step] at hstep
  | encryptForSend groupId =>
    obtain ⟨⟨client, frame⟩, hencrypt, rfl⟩ := map_eq_some_iff.mp hstep
    obtain ⟨hnew, hspent, hkeeps⟩ := spent_encryptForSend hencrypt
    refine ⟨?_, ?_, h.swap.encrypt hcounted client frame⟩
    · intro other hother
      rcases mem_cons.mp hother with rfl | hother
      · exact hspent
      · exact hkeeps other (h.spent other hother)
    · exact nodup_cons.mpr ⟨fun hmem => hnew (h.spent frame hmem), h.nodup⟩
  | noteLiveMutation frame =>
    obtain ⟨_, rfl⟩ := ite_some_none_eq_some.mp hstep
    exact ⟨h.spent, h.nodup, h.swap.note _⟩
  | createGroup groupId =>
    obtain ⟨client, hcreate, rfl⟩ := map_eq_some_iff.mp hstep
    exact ⟨fun frame hframe => spent_createGroup hcreate (h.spent frame hframe), h.nodup, h.swap⟩
  | commit groupId =>
    split at hstep
    · obtain ⟨client, hadvance, rfl⟩ := map_eq_some_iff.mp hstep
      exact ⟨fun frame hframe => spent_advanceEpoch hadvance (h.spent frame hframe), h.nodup,
        h.swap⟩
    · cases hstep
  | snapshot =>
    split at hstep
    · cases hstep
      exact ⟨h.spent, h.nodup, le_refl _, h.spent, fun _ hframe => .inl hframe⟩
    · cases hstep
  | workerCommit groupId =>
    split at hstep
    next mutationsAtSnapshot copy before hswap =>
      obtain ⟨client, hadvance, rfl⟩ := map_eq_some_iff.mp hstep
      obtain ⟨hle, hbefore, hframes⟩ := h.swap.working hswap
      exact ⟨h.spent, h.nodup, hle,
        fun frame hframe => spent_advanceEpoch hadvance (hbefore frame hframe), hframes⟩
    · cases hstep
  | workerFails | rebuildFails =>
    split at hstep
    · cases hstep
      exact ⟨h.spent, h.nodup, trivial⟩
    · cases hstep
  | installUnlessOvertaken =>
    split at hstep
    next mutationsAtSnapshot copy before hswap =>
      split at hstep
      · cases hstep
        exact ⟨h.spent, h.nodup, trivial⟩
      next hsame =>
        cases hstep
        exact ⟨h.spent, h.nodup, h.swap.compare hswap hcounted hsame⟩
    · cases hstep
  | swapClientMonotonic =>
    split at hstep
    next candidate hswap =>
      cases hstep
      refine ⟨?_, h.nodup, trivial⟩
      split
      · exact h.swap.rebuilding hswap
      · exact h.spent
    · cases hstep

theorem Inv.run {final : State Group} {actions : List (Action Group)} (h : Inv state)
    (hcounted : EachStep step Counted state actions)
    (hrun : run step state actions = some final) : Inv final :=
  run_invariant (fun hinv hok hstep => hinv.step hok hstep) h hcounted hrun

end Invariant

/-! ## 4. Results -/

/-- **A swap keeps what was spent.**  As long as no frame escapes the comparison, the live
    client has spent every frame ever encrypted, no frame is encrypted twice, and the last step
    of a swap either keeps the live client or installs a candidate that has spent them all. -/
theorem swap_keeps_spent {Group : Type} [DecidableEq Group] {client : Client Group}
    {liveMutations : Nat} {actions : List (Action Group)} {state : State Group}
    (hcounted : EachStep step Counted (init client liveMutations) actions)
    (hrun : run step (init client liveMutations) actions = some state) :
    (∀ frame ∈ state.spent, Spent state.client frame) ∧ state.spent.Nodup ∧
      ∀ next, step state .swapClientMonotonic = some next →
        next.client = state.client ∨ state.swap = .rebuilding next.client ∧
            ∀ frame ∈ state.spent, Spent next.client frame := by
  have hinv := (Inv.init client liveMutations).run hcounted hrun
  refine ⟨hinv.spent, hinv.nodup, ?_⟩
  intro next hstep
  have hallowed : Counted state .swapClientMonotonic := trivial
  have hnext := hinv.step hallowed hstep
  simp only [step] at hstep
  split at hstep
  next candidate hswap =>
    cases hstep
    by_cases hmonotonic : swapClientMonotonic state.client candidate = true
    · refine .inr ⟨?_, hnext.spent⟩
      simp [hmonotonic, hswap]
    · exact .inl (if_neg hmonotonic)
  · cases hstep

/-- The client of the examples: one group, at epoch 3. -/
def promoClient : Client String := empty.set "promo" ⟨3, 0⟩

/-- A frame sent and counted before the comparison discards the state; the next swap, with
    none sent, is made. -/
theorem swap_keeps_spent_overtaken :
    ∃ state, run step (init promoClient 0)
        [.snapshot, .encryptForSend "promo", .noteLiveMutation ⟨"promo", 3, 0⟩,
         .installUnlessOvertaken, .snapshot, .workerCommit "promo", .installUnlessOvertaken]
        = some state ∧
      (∃ next, step state .swapClientMonotonic = some next ∧
        next.client.get? "promo" = some ⟨4, 0⟩) ∧
      ∀ frame ∈ state.spent, Spent state.client frame := by
  refine Exists.imp (fun state hrun => ⟨hrun, ?_, (swap_keeps_spent ?_ hrun).1⟩) ⟨_, rfl⟩
  · cases hrun
    exact ⟨_, rfl, by decide⟩
  · refine .cons trivial rfl ?_
    refine .cons (fun _ hswap => (by cases hswap)) rfl ?_
    refine .cons trivial rfl ?_
    refine .cons (fun _ _ _ _ _ hframe => absurd hframe not_mem_nil) rfl ?_
    refine .cons trivial rfl ?_
    refine .cons trivial rfl ?_
    exact ⟨fun _ _ _ _ _ hframe => absurd hframe not_mem_nil, fun _ _ => trivial⟩

/-- A frame is sent while the candidate is rebuilt, after the comparison: the epochs are the
    same, the candidate is installed, and the next send takes the same generation again. -/
theorem swap_rewinds_ratchet :
    ∃ state next again, run step (init promoClient 0)
        [.snapshot, .installUnlessOvertaken, .encryptForSend "promo",
         .noteLiveMutation ⟨"promo", 3, 0⟩] = some state ∧
      step state .swapClientMonotonic = some next ∧
      state.spent = [⟨"promo", 3, 0⟩] ∧ next.client.get? "promo" = some ⟨3, 0⟩ ∧
      step next (.encryptForSend "promo") = some again ∧
      again.spent = [⟨"promo", 3, 0⟩, ⟨"promo", 3, 0⟩] :=
  ⟨_, _, _, rfl, rfl, rfl, by decide, rfl, rfl⟩

end MinesApp.ClientSwap
