import MinesApp.OrderedMap
import MinesApp.TransitionSystem
import MinesApp.VersionedRegister
import Mathlib.Algebra.GroupWithZero.Nat
import Mathlib.Algebra.Order.BigOperators.Group.List
import Mathlib.Algebra.Order.Group.Nat

/-!
# The send-ratchet ledger across crashes

Encrypting a frame advances the sender's ratchet, and the checkpoint that makes
the advance durable is not awaited.  `sendRatchetLedger.ts` therefore keeps two
counters per group in `localStorage`, `emitted` and `persisted`, and
`BaseMlsService.reconcileSendRatchets` burns their difference after a reload, so
that the restored ratchet is not behind the frames that already left.

The model is one device: its ledger, its write-if-newer checkpoint store, and the
page that dies at a crash (live client, frames and checkpoints in flight).  A
commit moves a group to its next epoch, where the ratchet starts again at zero
while the ledger goes on counting.
-/

namespace MinesApp.SendRatchetLedger

open TransitionSystem VersionedRegister List Function OrderedMap Option

/-! ## 1. The ledger

`localStorage` holds it as JSON; every read and write is taken to succeed. -/

def maxBurnGenerations : Nat := 2000

structure Ledger (Group : Type) where
  emitted : OrderedMap Group Nat
  persisted : OrderedMap Group Nat
deriving DecidableEq, Repr

structure SendRatchetDeficit (Group : Type) where
  groupId : Group
  deficit : Nat
  clamped : Bool
deriving DecidableEq, Repr

section

variable {Group : Type} [DecidableEq Group]

def Ledger.empty : Ledger Group := ⟨.empty, .empty⟩

/-- Absent groups read as 0. -/
def countOf (counts : OrderedMap Group Nat) (groupId : Group) : Nat :=
  (counts.get? groupId).getD 0

section

variable (ledger : Ledger Group)

def noteFrameEmitted (groupId : Group) : Ledger Group :=
  { ledger with emitted := ledger.emitted.set groupId (countOf ledger.emitted groupId + 1) }

def snapshotEmitted : OrderedMap Group Nat := ledger.emitted

/-- One turn of the loop of `commitPersisted`. -/
def raisePersisted (persisted : OrderedMap Group Nat) (entry : Group × Nat) :
    OrderedMap Group Nat :=
  persisted.set entry.1 (max (countOf persisted entry.1) entry.2)

def commitPersisted (snapshot : OrderedMap Group Nat) : Ledger Group :=
  { ledger with persisted := snapshot.entries.foldl raisePersisted ledger.persisted }

def pendingSendGenerations : List (SendRatchetDeficit Group) :=
  ledger.emitted.entries.filterMap fun (groupId, emitted) =>
    let raw : Int := (emitted : Int) - countOf ledger.persisted groupId
    if raw ≤ 0 then none
    else some ⟨groupId, min raw.toNat maxBurnGenerations, decide (maxBurnGenerations < raw)⟩

end

end

/-! ## 2. The device -/

/-- This device's own send ratchet in one group: the epoch it belongs to and the
    generation the next frame will use. -/
structure Ratchet where
  epoch : Nat
  generation : Nat
deriving DecidableEq, Repr

/-- The part of the MLS client that sending and checkpointing reach. -/
abbrev Client (Group : Type) := Group → Option Ratchet

/-- A serialised client.  `emittedAt` is what `emitted` was when it was captured;
    the blob does not hold it, and no step reads it. -/
structure Blob (Group : Type) where
  client : Client Group
  emittedAt : OrderedMap Group Nat

/-- What `encryptForSend` returns, with the generation it consumed. -/
structure Frame (Group : Type) where
  groupId : Group
  epoch : Nat
  generation : Nat
deriving DecidableEq, Repr

-- Named, so that the membership tests of the modules that use frames all refer to one instance.
instance Frame.lawfulBEq {Group : Type} [DecidableEq Group] : LawfulBEq (Frame Group) :=
  inferInstance

/-- Where one `persistCheckpoint` stands: `snapshotEmitted` was read, the client
    was captured and tagged, the write resolved, or the call is over. -/
inductive Checkpoint (Group : Type) where
  | started (emitted : OrderedMap Group Nat)
  | captured (emitted : OrderedMap Group Nat) (entry : Entry (Blob Group))
  | written (emitted : OrderedMap Group Nat)
  | over

/-- `repairing` is the loop of `reconcileSendRatchets` with the deficits it still
    has to burn and its `repaired` count, `closing` its final checkpoint. -/
inductive Phase (Group : Type) where
  | down
  | repairing (pending : List (SendRatchetDeficit Group)) (repaired : Nat)
  | closing (call : Nat)
  | up

structure Device (Group : Type) where
  ledger : Ledger Group
  durable : Option (Entry (Blob Group))
  phase : Phase Group
  client : Client Group
  snapshotSeq : Nat
  -- calls of `emitFrame` between the encryption and `noteFrameEmitted`
  encrypted : List (Frame Group)
  -- and between `noteFrameEmitted` and the end of the post
  noted : List (Frame Group)
  checkpoints : Nat → Option (Checkpoint Group)
  -- every frame ever emitted, whatever became of its post
  history : List (Frame Group)

inductive Action (Group : Type) where
  | encrypt (groupId : Group)
  | note (frame : Frame Group)
  | post (frame : Frame Group)
  | start (call : Nat)
  | capture (call : Nat)
  | write (call : Nat)
  | fail (call : Nat)
  | commit (call : Nat)
  | advance (groupId : Group)
  | crash
  | reload
  | burn (refusedAfter : Option Nat)
  | finishRepair (call : Nat)
  | ready
deriving DecidableEq, Repr

section Steps

variable {Group : Type} [DecidableEq Group]

section

variable (client : Client Group) (groupId : Group)

def encryptForSend : Option (Client Group × Frame Group) :=
  (client groupId).map fun ratchet =>
    (update client groupId (some { ratchet with generation := ratchet.generation + 1 }),
     ⟨groupId, ratchet.epoch, ratchet.generation⟩)

/-- `skip_send_generations`: an absent group is `GroupNotFound`; `refusedAfter` is
    the turn at which OpenMLS refuses to build a frame, the generations burnt
    before it being spent all the same.  The flag says whether the call succeeded. -/
def skipSendGenerations (count : Nat) (refusedAfter : Option Nat) : Client Group × Bool :=
  if count = 0 then (client, true)
  else
    match client groupId with
    | none => (client, false)
    | some ratchet =>
      let burnt := (refusedAfter.map (min count)).getD count
      (update client groupId (some { ratchet with generation := ratchet.generation + burnt }),
       decide (burnt = count))

end

section

variable (device : Device Group)

def Device.setCheckpoint (call : Nat) (stage : Checkpoint Group) : Device Group :=
  { device with checkpoints := update device.checkpoints call (some stage) }

/-- The first line of `persistCheckpoint`. -/
def startCheckpoint (call : Nat) : Option (Device Group) :=
  match device.checkpoints call with
  | none => some (device.setCheckpoint call (.started (snapshotEmitted device.ledger)))
  | some _ => none

/-- `init` on a new page with a stored state: the client and the version counter
    are restored from it and the repair begins. -/
def restore (entry : Entry (Blob Group)) : Device Group :=
  { device with
    client := entry.value.client, snapshotSeq := entry.version,
    phase := .repairing (pendingSendGenerations device.ledger) 0 }

/-- `init` without a stored state, for which `reconcileSendRatchets` only drops the
    ledger. -/
def freshStart : Device Group :=
  { device with
    client := fun _ => none, snapshotSeq := 0, ledger := .empty, phase := .up }

/-- The page dies with everything in memory; `localStorage` and the checkpoint
    store stay.  The version counter is set again when the next page loads. -/
def crash : Device Group :=
  { device with
    phase := .down, client := fun _ => none, encrypted := [], noted := [],
    checkpoints := fun _ => none }

def step : Action Group → Option (Device Group)
  | .encrypt groupId =>
    match device.phase with
    | .up =>
      (encryptForSend device.client groupId).map fun (client, frame) =>
        { device with client, encrypted := frame :: device.encrypted }
    | _ => none
  | .note frame =>
    if frame ∈ device.encrypted then
      some { device with
        ledger := noteFrameEmitted device.ledger frame.groupId
        encrypted := device.encrypted.erase frame
        noted := frame :: device.noted
        history := frame :: device.history }
    else none
  -- whether the post succeeds or throws, neither the ratchet nor the ledger moves
  | .post frame =>
    if frame ∈ device.noted then some { device with noted := device.noted.erase frame }
    else none
  | .start call =>
    match device.phase with
    | .up => startCheckpoint device call
    | _ => none
  | .capture call =>
    match device.checkpoints call with
    | some (.started emitted) =>
      let blob : Blob Group := ⟨device.client, device.ledger.emitted⟩
      some ({ device with snapshotSeq := device.snapshotSeq + 1 }.setCheckpoint call
        (.captured emitted ⟨device.snapshotSeq + 1, blob⟩))
    | _ => none
  | .write call =>
    match device.checkpoints call with
    | some (.captured emitted entry) =>
      some ({ device with durable := offer device.durable entry }.setCheckpoint call
        (.written emitted))
    | _ => none
  -- `writeCheckpoint` throws, so `commitPersisted` is not reached
  | .fail call =>
    match device.checkpoints call with
    | some (.started _) | some (.captured _ _) => some (device.setCheckpoint call .over)
    | _ => none
  | .commit call =>
    match device.checkpoints call with
    | some (.written emitted) =>
      some ({ device with ledger := commitPersisted device.ledger emitted }.setCheckpoint
        call .over)
    | _ => none
  -- a commit is merged: the group's ratchets are derived anew for the next epoch
  | .advance groupId =>
    match device.phase, device.client groupId with
    | .up, some ratchet =>
      some { device with
        client := update device.client groupId (some ⟨ratchet.epoch + 1, 0⟩) }
    | _, _ => none
  | .crash => some (crash device)
  | .reload =>
    match device.phase, device.durable with
    | .down, some entry => some (restore device entry)
    | .down, none => some (freshStart device)
    | _, _ => none
  | .burn refusedAfter =>
    match device.phase with
    | .repairing (next :: rest) repaired =>
      let (client, succeeded) :=
        skipSendGenerations device.client next.groupId next.deficit refusedAfter
      some { device with
        client
        phase := .repairing rest (if succeeded then repaired + 1 else repaired) }
    | _ => none
  | .finishRepair call =>
    match device.phase with
    | .repairing [] repaired =>
      if repaired = 0 then some { device with phase := .up }
      else startCheckpoint { device with phase := .closing call } call
    | _ => none
  | .ready =>
    match device.phase with
    | .closing call =>
      match device.checkpoints call with
      | some .over => some { device with phase := .up }
      | _ => none
    | _ => none

end

end Steps

/-! ## 3. What the ledger counts -/

section Counting

variable {Group : Type} [DecidableEq Group]

theorem countOf_set (counts : OrderedMap Group Nat) (groupId other : Group) (count : Nat) :
    countOf (counts.set groupId count) other =
      if other = groupId then count else countOf counts other := by
  unfold countOf
  rw [get?_set]
  split <;> rfl

theorem emitted_noteFrameEmitted (ledger : Ledger Group) (groupId other : Group) :
    countOf (noteFrameEmitted ledger groupId).emitted other =
      countOf ledger.emitted other + if other = groupId then 1 else 0 := by
  simp only [noteFrameEmitted, countOf_set]
  split
  next hsame => rw [hsame]
  · rfl

/-- The loop raises each group to its own snapshot count and no further. -/
theorem countOf_foldl_raisePersisted {entries : List (Group × Nat)}
    (hnodup : (entries.map Prod.fst).Nodup) (persisted : OrderedMap Group Nat) (groupId : Group) :
    countOf (entries.foldl raisePersisted persisted) groupId =
      max (countOf persisted groupId) ((OrderedMap.lookup groupId entries).getD 0) := by
  induction entries generalizing persisted with
  | nil => simp [OrderedMap.lookup]
  | cons entry rest ih =>
    obtain ⟨hfresh, hrest⟩ := nodup_cons.mp hnodup
    rw [foldl_cons, ih hrest, raisePersisted, countOf_set]
    by_cases hkey : groupId = entry.1
    · have hnone : OrderedMap.lookup groupId rest = none :=
        OrderedMap.lookup_eq_none.mpr (hkey ▸ hfresh)
      rw [if_pos hkey, hnone]
      simp [OrderedMap.lookup, hkey]
    · rw [if_neg hkey]
      simp [OrderedMap.lookup, Ne.symm hkey]

/-- Generations of `groupId` that the repair loop has still to burn. -/
def owed (groupId : Group) : Phase Group → Nat
  | .repairing pending _ =>
    ((pending.filter fun next => next.groupId = groupId).map SendRatchetDeficit.deficit).sum
  | _ => 0

theorem owed_cons (groupId : Group) (next : SendRatchetDeficit Group)
    (rest : List (SendRatchetDeficit Group)) (repaired after : Nat) :
    owed groupId (.repairing (next :: rest) repaired) =
      (if next.groupId = groupId then next.deficit else 0) +
        owed groupId (.repairing rest after) := by
  by_cases hsame : next.groupId = groupId
  all_goals simp [owed, hsame]

theorem skipSendGenerations_self (client : Client Group) (groupId : Group) (count : Nat) :
    (skipSendGenerations client groupId count none).1 groupId =
      (client groupId).map fun ratchet =>
        { ratchet with generation := ratchet.generation + count } := by
  unfold skipSendGenerations
  split
  next hzero =>
    cases hclient : client groupId with
    | none => exact hclient
    | some ratchet => simp [hzero, hclient]
  · cases hclient : client groupId with
    | none => exact hclient
    | some ratchet => simp

theorem skipSendGenerations_ne (client : Client Group) {groupId other : Group}
    (hne : other ≠ groupId) (count : Nat) (refusedAfter : Option Nat) :
    (skipSendGenerations client other count refusedAfter).1 groupId = client groupId := by
  unfold skipSendGenerations
  split
  · rfl
  · split
    · rfl
    · exact update_of_ne hne.symm _ _

/-- Before the end of the burn nothing is sent and no checkpoint is taken. -/
def Phase.quiet : Phase Group → Bool
  | .down | .repairing _ _ => true
  | .closing _ | .up => false

omit [DecidableEq Group] in
theorem quiet_up {phase : Phase Group} (h : phase = .up) : phase.quiet = false := by
  rw [h, Phase.quiet]

theorem owed_eq_zero {phase : Phase Group} (h : phase.quiet = false) (groupId : Group) :
    owed groupId phase = 0 := by
  cases phase with
  | repairing pending repaired => cases h
  | down | closing call | up => rfl

/-- Below the clamp, the list handed to the repair loop covers the whole difference
    of the two counters. -/
theorem emitted_le_persisted_add_owed {ledger : Ledger Group} {groupId : Group}
    (hclamp : countOf ledger.emitted groupId - countOf ledger.persisted groupId
      ≤ maxBurnGenerations) (repaired : Nat) :
    countOf ledger.emitted groupId ≤ countOf ledger.persisted groupId +
      owed groupId (.repairing (pendingSendGenerations ledger) repaired) := by
  by_cases hle : countOf ledger.emitted groupId ≤ countOf ledger.persisted groupId
  · omega
  · have hentry : (groupId, countOf ledger.emitted groupId) ∈ ledger.emitted.entries := by
      rw [mem_entries]
      cases hget : ledger.emitted.get? groupId with
      | none => simp [countOf, hget] at hle
      | some count => simp [countOf, hget]
    have hpending : ⟨groupId, countOf ledger.emitted groupId - countOf ledger.persisted groupId,
        false⟩ ∈ pendingSendGenerations ledger := by
      refine mem_filterMap.mpr ⟨_, hentry, ?_⟩
      have hpos :
          ¬ (countOf ledger.emitted groupId : Int) - countOf ledger.persisted groupId ≤ 0 := by
        omega
      simp only [if_neg hpos, some.injEq, SendRatchetDeficit.mk.injEq, true_and]
      refine ⟨?_, ?_⟩
      · omega
      · rw [decide_eq_false_iff_not]
        omega
    have hsum : countOf ledger.emitted groupId - countOf ledger.persisted groupId ≤
        owed groupId (.repairing (pendingSendGenerations ledger) repaired) := by
      apply single_le_sum (fun _ _ => Nat.zero_le _)
      exact mem_map.mpr ⟨_, mem_filter.mpr ⟨hpending, by simp⟩, rfl⟩
    omega

/-- How many frames of one epoch of a group a list of frames holds. -/
def framesIn (frames : List (Frame Group)) (groupId : Group) (epoch : Nat) : Nat :=
  frames.countP fun frame => frame.groupId = groupId ∧ frame.epoch = epoch

/-- One when the frame belongs to the epoch of the group. -/
def Frame.weight (frame : Frame Group) (groupId : Group) (epoch : Nat) : Nat :=
  if frame.groupId = groupId ∧ frame.epoch = epoch then 1 else 0

theorem framesIn_cons (frame : Frame Group) (frames : List (Frame Group)) (groupId : Group)
    (epoch : Nat) :
    framesIn (frame :: frames) groupId epoch =
      framesIn frames groupId epoch + frame.weight groupId epoch := by
  simp [framesIn, Frame.weight, countP_cons]

theorem Frame.weight_le (frame : Frame Group) (groupId : Group) (epoch : Nat) :
    frame.weight groupId epoch ≤ if groupId = frame.groupId then 1 else 0 := by
  unfold Frame.weight
  split
  next h => rw [if_pos h.1.symm]
  · exact Nat.zero_le _

end Counting

/-! ## 4. The invariant

Everything is about one group.  A checkpoint taken when `base` frames had been
emitted covers an epoch when the frames of that epoch are no more than its
generation and the frames emitted since, `emitted - base`; the reload burns
`emitted - persisted`, so what has to be kept is that `persisted` never passes the
`base` of the checkpoint a reload would find. -/

section Invariant

variable {Group : Type} [DecidableEq Group] {groupId : Group}

/-- `entry` is stored, or on its way to the store. -/
def Device.Holds (device : Device Group) (entry : Entry (Blob Group)) : Prop :=
  device.durable = some entry ∨
    ∃ call emitted, device.checkpoints call = some (.captured emitted entry)

/-- What `emitted` was when the blob was captured. -/
def baseOf (groupId : Group) (entry : Entry (Blob Group)) : Nat :=
  countOf entry.value.emittedAt groupId

structure BlobOk (groupId : Group) (snapshotSeq emitted : Nat) (history : List (Frame Group))
    (entry : Entry (Blob Group)) : Prop where
  version_le : entry.version ≤ snapshotSeq
  base_le : baseOf groupId entry ≤ emitted
  covers : ∀ ratchet, entry.value.client groupId = some ratchet →
    framesIn history groupId ratchet.epoch ≤ ratchet.generation + (emitted - baseOf groupId entry)

/-- The count a checkpoint will declare persisted was read before its capture. -/
def CallOk (groupId : Group) (device : Device Group) : Checkpoint Group → Prop
  | .started emitted => countOf emitted groupId ≤ countOf device.ledger.emitted groupId
  | .captured emitted entry => countOf emitted groupId ≤ baseOf groupId entry
  | .written emitted =>
    ∃ entry, device.durable = some entry ∧ countOf emitted groupId ≤ baseOf groupId entry
  | .over => True

structure Inv (groupId : Group) (device : Device Group) : Prop where
  persisted_le :
    countOf device.ledger.persisted groupId ≤ device.durable.elim 0 (baseOf groupId)
  live : ∀ ratchet, device.client groupId = some ratchet →
    framesIn device.history groupId ratchet.epoch +
        framesIn device.encrypted groupId ratchet.epoch ≤
      ratchet.generation + owed groupId device.phase
  -- a frame still being counted belongs to the live epoch or to an earlier one
  earlier : ∀ frame ∈ device.encrypted, frame.groupId = groupId →
    ∃ ratchet, device.client groupId = some ratchet ∧ frame.epoch ≤ ratchet.epoch
  blobs : ∀ entry, device.Holds entry →
    BlobOk groupId device.snapshotSeq (countOf device.ledger.emitted groupId) device.history entry
  ordered : ∀ first second, device.Holds first → device.Holds second →
    first.version ≤ second.version → baseOf groupId first ≤ baseOf groupId second
  calls : ∀ call stage, device.checkpoints call = some stage → CallOk groupId device stage
  -- nothing is in flight until the burn is over
  idle : device.phase.quiet = true → device.encrypted = [] ∧ ∀ call, device.checkpoints call = none

/-- The conditions of the guarantee, for one group: at a reload the difference of
    the counters is within the clamp, and OpenMLS builds every frame of the burn.
    The ledger does not know epochs, so an epoch change is covered when it leads to
    an epoch in which no frame has been emitted; a commit merged a second time after
    a reload, into an epoch already sent in, is not. -/
def Provided (groupId : Group) (device : Device Group) : Action Group → Prop
  | .reload =>
    countOf device.ledger.emitted groupId - countOf device.ledger.persisted groupId
      ≤ maxBurnGenerations
  | .advance other =>
    match device.client groupId with
    | some ratchet =>
      other = groupId → framesIn device.history groupId (ratchet.epoch + 1) = 0
    | none => True
  | .burn (some _) =>
    match device.phase with
    | .repairing (next :: _) _ => next.groupId ≠ groupId
    | _ => True
  | _ => True

instance Provided.decidable (groupId : Group) (device : Device Group) :
    ∀ action, Decidable (Provided groupId device action)
  | .reload => inferInstanceAs (Decidable (_ ≤ maxBurnGenerations))
  | .advance other =>
    match hclient : device.client groupId with
    | some ratchet =>
      decidable_of_iff (other = groupId → framesIn device.history groupId (ratchet.epoch + 1) = 0)
        (by simp only [Provided, hclient])
    | none => isTrue (by simp only [Provided, hclient])
  | .burn (some _) =>
    match hphase : device.phase with
    | .repairing (next :: _) _ =>
      decidable_of_iff (next.groupId ≠ groupId) (by simp only [Provided, hphase])
    | .repairing [] _ | .down | .closing _ | .up => isTrue (by simp only [Provided, hphase])
  | .burn none | .encrypt _ | .note _ | .post _ | .start _ | .capture _ | .write _ | .fail _
  | .commit _ | .crash | .finishRepair _ | .ready => isTrue trivial

/-! ### Frames -/

variable {device next : Device Group} {call : Nat} {stage : Checkpoint Group}

section

variable (h : Inv groupId device)
include h

theorem Inv.encrypt {other : Group}
    (hstep : step device (.encrypt other) = some next) : Inv groupId next := by
  simp only [step] at hstep
  split at hstep
  next hphase =>
    simp only [encryptForSend, Option.map_map, Option.map_eq_some_iff, comp] at hstep
    obtain ⟨ratchet, hclient, rfl⟩ := hstep
    refine { h with live := ?_, earlier := ?_, idle := ?_ }
    · intro after hafter
      rcases update_eq_some_iff.mp hafter with ⟨rfl, hsame⟩ | ⟨hne, hold⟩
      · cases hsame
        have := h.live ratchet hclient
        simp only [framesIn_cons, Frame.weight]
        simp only [and_self, if_true]
        omega
      · have := h.live after hold
        simp only [framesIn_cons, Frame.weight, Ne.symm hne, false_and, if_false]
        omega
    · intro frame hframe hgroup
      rcases mem_cons.mp hframe with rfl | hold
      · cases hgroup
        exact ⟨_, update_self _ _ _, le_refl _⟩
      · obtain ⟨held, hheld, hle⟩ := h.earlier frame hold hgroup
        by_cases hsame : groupId = other
        · subst hsame
          cases hclient.symm.trans hheld
          exact ⟨_, update_self _ _ _, hle⟩
        · exact ⟨held, by simp [hsame, hheld], hle⟩
    · intro hquiet
      exact absurd ((quiet_up hphase).symm.trans hquiet) nofun
  · cases hstep

variable {frame : Frame Group}

theorem Inv.note (hstep : step device (.note frame) = some next) : Inv groupId next := by
  obtain ⟨hmem, rfl⟩ := ite_some_none_eq_some.mp hstep
  refine { h with live := ?_, earlier := ?_, blobs := ?_, calls := ?_, idle := ?_ }
  · intro ratchet hclient
    have := h.live ratchet hclient
    have hnoted : framesIn _ groupId ratchet.epoch = framesIn _ groupId ratchet.epoch :=
      (perm_cons_erase hmem).countP_eq _
    simp only [framesIn_cons] at hnoted ⊢
    omega
  · exact fun other hother => h.earlier other (mem_of_mem_erase hother)
  · intro entry hholds
    obtain ⟨hversion, hbase, hcovers⟩ := h.blobs entry hholds
    rw [emitted_noteFrameEmitted]
    refine ⟨hversion, Nat.le_add_right_of_le hbase, fun ratchet hclient => ?_⟩
    -- the ledger counts the frame whatever its epoch, so it grows at least as fast
    have := hcovers ratchet hclient
    have := frame.weight_le groupId ratchet.epoch
    rw [framesIn_cons]
    omega
  · intro call stage hcall
    have hok := h.calls call stage hcall
    cases stage with
    | started emitted =>
      simp only [CallOk, emitted_noteFrameEmitted] at hok ⊢
      exact Nat.le_add_right_of_le hok
    | captured emitted entry | written emitted => exact hok
    | _ => trivial
  · intro hquiet
    rw [(h.idle hquiet).1] at hmem
    cases hmem

theorem Inv.post (hstep : step device (.post frame) = some next) : Inv groupId next := by
  obtain ⟨_, rfl⟩ := ite_some_none_eq_some.mp hstep
  exact { h with }

end

/-! ### Checkpoints -/

omit [DecidableEq Group] in
theorem holds_setCheckpoint
    {entry : Entry (Blob Group)} (h : (device.setCheckpoint call stage).Holds entry) :
    device.Holds entry ∨ ∃ emitted, stage = .captured emitted entry := by
  rcases h with hdurable | ⟨other, emitted, hother⟩
  · exact .inl (.inl hdurable)
  · rcases update_eq_some_iff.mp hother with ⟨_, hsame⟩ | ⟨_, hold⟩
    · exact .inr ⟨emitted, some.inj hsame⟩
    · exact .inl (.inr ⟨other, emitted, hold⟩)

section

variable (h : Inv groupId device)
include h

/-- A call that moves to a stage holding no blob of its own. -/
theorem Inv.setCheckpoint (hok : CallOk groupId device stage)
    (hstage : ∀ emitted entry, stage ≠ .captured emitted entry)
    (hphase : device.phase.quiet = false) : Inv groupId (device.setCheckpoint call stage) := by
  have hholds : ∀ entry, (device.setCheckpoint call stage).Holds entry → device.Holds entry :=
    fun entry hentry => (holds_setCheckpoint hentry).resolve_right
      fun ⟨emitted, heq⟩ => hstage emitted entry heq
  refine { h with blobs := ?_, ordered := ?_, calls := ?_, idle := ?_ }
  · exact fun entry hentry => h.blobs entry (hholds entry hentry)
  · exact fun first second hfirst hsecond =>
      h.ordered first second (hholds first hfirst) (hholds second hsecond)
  · intro other held hother
    rcases update_eq_some_iff.mp hother with ⟨_, hsame⟩ | ⟨_, hold⟩
    · cases hsame
      exact hok
    · exact h.calls other held hold
  · intro hquiet
    exact absurd (hphase.symm.trans hquiet) nofun

theorem Inv.not_quiet (hcall : device.checkpoints call = some stage) :
    device.phase.quiet = false := by
  rw [← Bool.not_eq_true]
  intro hquiet
  rw [(h.idle hquiet).2 call] at hcall
  cases hcall

protected theorem Inv.startCheckpoint (hphase : device.phase.quiet = false)
    (hstart : startCheckpoint device call = some next) : Inv groupId next := by
  unfold startCheckpoint at hstart
  split at hstart
  · cases hstart
    exact h.setCheckpoint (le_refl _) (fun _ _ => nofun) hphase
  · cases hstart

theorem Inv.capture (hstep : step device (.capture call) = some next) : Inv groupId next := by
  simp only [step] at hstep
  split at hstep
  next emitted hcall =>
    cases hstep
    have hphase := h.not_quiet hcall
    have howed := owed_eq_zero hphase groupId
    have hnew : BlobOk groupId (device.snapshotSeq + 1) (countOf device.ledger.emitted groupId)
        device.history ⟨device.snapshotSeq + 1, device.client, device.ledger.emitted⟩ := by
      refine ⟨le_refl _, le_refl _, fun ratchet hclient => ?_⟩
      have := h.live ratchet hclient
      omega
    refine { h with blobs := ?_, ordered := ?_, calls := ?_, idle := ?_ }
    · intro entry hentry
      rcases holds_setCheckpoint hentry with hold | ⟨_, hsame⟩
      · obtain ⟨hversion, hbase, hcovers⟩ := h.blobs entry hold
        exact ⟨Nat.le_succ_of_le hversion, hbase, hcovers⟩
      · cases hsame
        exact hnew
    · intro first second hfirst hsecond hle
      rcases holds_setCheckpoint hfirst with hold | ⟨_, hsame⟩ <;>
        rcases holds_setCheckpoint hsecond with hold' | ⟨_, hsame'⟩
      · exact h.ordered first second hold hold' hle
      · cases hsame'
        exact (h.blobs first hold).base_le
      · cases hsame
        have := (h.blobs second hold').version_le
        simp only at hle
        omega
      · cases hsame
        cases hsame'
        exact le_refl _
    · intro other stage hother
      rcases update_eq_some_iff.mp hother with ⟨_, hsame⟩ | ⟨_, hold⟩
      · cases hsame
        exact h.calls call _ hcall
      · exact h.calls other stage hold
    · intro hquiet
      exact absurd (hphase.symm.trans hquiet) nofun
  · cases hstep

/-- The store takes a blob in flight or keeps what it has; either way what it holds
    is at least as new, and its base no smaller. -/
theorem Inv.offer {entry : Entry (Blob Group)} (hentry : device.Holds entry) :
    Inv groupId { device with durable := offer device.durable entry } ∧
      ∃ held, offer device.durable entry = some held ∧
        baseOf groupId entry ≤ baseOf groupId held := by
  rcases offer_cases device.durable entry with ⟨hnew, hnewer⟩ | ⟨kept, hkept, hle, hsame⟩
  · rw [hnew]
    have hbase : ∀ held, device.durable = some held → baseOf groupId held ≤ baseOf groupId entry :=
      fun held hheld =>
        h.ordered held entry (.inl hheld) hentry (le_of_lt (hnewer held hheld))
    have hholds : ∀ other, { device with durable := some entry }.Holds other →
        device.Holds other := by
      rintro other (hother | hflight)
      · cases hother
        exact hentry
      · exact .inr hflight
    refine ⟨{ h with
        persisted_le := le_trans h.persisted_le ?_, blobs := ?_, ordered := ?_, calls := ?_ },
      entry, rfl, le_refl _⟩
    · cases hdurable : device.durable with
      | none => exact Nat.zero_le _
      | some before => exact hbase before hdurable
    · exact fun other hother => h.blobs other (hholds other hother)
    · exact fun first second hfirst hsecond =>
        h.ordered first second (hholds first hfirst) (hholds second hsecond)
    · intro call stage hcall
      have hok := h.calls call stage hcall
      cases stage with
      | started emitted | captured emitted blob => exact hok
      | written emitted =>
        obtain ⟨held, hheld, hcount⟩ := hok
        exact ⟨entry, rfl, le_trans hcount (hbase held hheld)⟩
      | _ => trivial
  · rw [hsame, ← hkept]
    exact ⟨h, kept, hkept, h.ordered entry kept hentry (.inl hkept) hle⟩

theorem Inv.write (hstep : step device (.write call) = some next) : Inv groupId next := by
  simp only [step] at hstep
  split at hstep
  next emitted entry hcall =>
    cases hstep
    obtain ⟨hstored, held, hheld, hbase⟩ := h.offer (.inr ⟨call, emitted, hcall⟩)
    refine hstored.setCheckpoint ?_ (fun _ _ => nofun) (h.not_quiet hcall)
    exact ⟨held, hheld, le_trans (h.calls call _ hcall) hbase⟩
  · cases hstep

theorem Inv.fail (hstep : step device (.fail call) = some next) : Inv groupId next := by
  simp only [step] at hstep
  split at hstep
  next hcall =>
    cases hstep
    exact h.setCheckpoint trivial (fun _ _ => nofun) (h.not_quiet hcall)
  next hcall =>
    cases hstep
    exact h.setCheckpoint trivial (fun _ _ => nofun) (h.not_quiet hcall)
  · cases hstep

theorem Inv.commit (hstep : step device (.commit call) = some next) : Inv groupId next := by
  simp only [step] at hstep
  split at hstep
  next emitted hcall =>
    cases hstep
    obtain ⟨held, hheld, hcount⟩ := h.calls call _ hcall
    have hcommitted : Inv groupId
        { device with ledger := commitPersisted device.ledger emitted } := by
      refine { h with persisted_le := ?_ }
      rw [commitPersisted, countOf_foldl_raisePersisted emitted.nodup]
      refine Nat.max_le.mpr ⟨h.persisted_le, ?_⟩
      rw [hheld]
      exact hcount
    exact hcommitted.setCheckpoint trivial (fun _ _ => nofun) (h.not_quiet hcall)
  · cases hstep

end

/-! ### Epochs, crashes and the repair -/

section

variable (h : Inv groupId device)
include h

theorem Inv.advance {other : Group} (hok : Provided groupId device (.advance other))
    (hstep : step device (.advance other) = some next) : Inv groupId next := by
  simp only [step] at hstep
  split at hstep
  next ratchet hphase hclient =>
    cases hstep
    refine { h with live := ?_, earlier := ?_ }
    · intro after hafter
      rcases update_eq_some_iff.mp hafter with ⟨rfl, hsame⟩ | ⟨_, hold⟩
      · cases hsame
        simp only [Provided, hclient, true_implies] at hok
        have hnone : framesIn device.encrypted groupId (ratchet.epoch + 1) = 0 := by
          refine countP_eq_zero.mpr fun frame hframe => ?_
          rw [decide_eq_true_eq]
          rintro ⟨hgroup, hepoch⟩
          obtain ⟨held, hheld, hle⟩ := h.earlier frame hframe hgroup
          cases hclient.symm.trans hheld
          omega
        rw [hok, hnone]
        exact Nat.zero_le _
      · exact h.live after hold
    · intro frame hframe hgroup
      obtain ⟨held, hheld, hle⟩ := h.earlier frame hframe hgroup
      by_cases hsame : groupId = other
      · subst hsame
        cases hclient.symm.trans hheld
        exact ⟨_, update_self _ _ _, Nat.le_succ_of_le hle⟩
      · exact ⟨held, by simp [hsame, hheld], hle⟩
  · cases hstep

protected theorem Inv.crash : Inv groupId (crash device) := by
  have hholds : ∀ entry, (crash device).Holds entry → device.Holds entry := by
    rintro entry (hdurable | ⟨_, _, hcall⟩)
    · exact .inl hdurable
    · cases hcall
  exact { h with
      live := nofun
      earlier := nofun
      blobs := fun entry hentry => h.blobs entry (hholds entry hentry)
      ordered := fun first second hfirst hsecond =>
        h.ordered first second (hholds first hfirst) (hholds second hsecond)
      calls := nofun
      idle := fun _ => ⟨rfl, fun _ => rfl⟩ }

/-- A restored page owes what the ledger says is missing from the stored blob. -/
protected theorem Inv.restore (hphase : device.phase = .down) {stored : Entry (Blob Group)}
    (hstored : device.durable = some stored) (hok : Provided groupId device .reload) :
    Inv groupId (restore device stored) := by
  obtain ⟨hencrypted, hcalls⟩ := h.idle (by rw [hphase, Phase.quiet])
  obtain ⟨_, hbase, hcovers⟩ := h.blobs stored (.inl hstored)
  have honly : ∀ entry, (restore device stored).Holds entry → entry = stored := by
    rintro entry (hentry | ⟨call, emitted, hcall⟩)
    · exact some.inj (hentry.symm.trans hstored)
    · cases (hcalls call).symm.trans hcall
  refine { h with live := ?_, earlier := ?_, blobs := ?_, ordered := ?_, idle := ?_ }
  · intro ratchet hclient
    have hcover := hcovers ratchet hclient
    have hpersisted := h.persisted_le
    rw [hstored, Option.elim_some] at hpersisted
    have howed := emitted_le_persisted_add_owed hok 0
    have hnone : framesIn device.encrypted groupId ratchet.epoch = 0 := by
      rw [hencrypted, framesIn, countP_nil]
    simp only [restore]
    omega
  · intro frame hframe
    rw [show (restore device stored).encrypted = [] from hencrypted] at hframe
    cases hframe
  · intro entry hentry
    cases honly entry hentry
    exact ⟨le_refl _, hbase, hcovers⟩
  · intro first second hfirst hsecond _
    rw [honly first hfirst, honly second hsecond]
  · exact fun _ => ⟨hencrypted, hcalls⟩

protected theorem Inv.freshStart (hphase : device.phase = .down) (hstored : device.durable = none) :
    Inv groupId (freshStart device) := by
  obtain ⟨hencrypted, hcalls⟩ := h.idle (by rw [hphase, Phase.quiet])
  have hnothing : ∀ entry, ¬ (freshStart device).Holds entry := by
    rintro entry (hentry | ⟨call, emitted, hcall⟩)
    · cases hstored.symm.trans hentry
    · cases (hcalls call).symm.trans hcall
  refine ⟨Nat.zero_le _, nofun, ?_, ?_, ?_, ?_, nofun⟩
  · intro frame hframe
    rw [show (freshStart device).encrypted = [] from hencrypted] at hframe
    cases hframe
  · exact fun entry hentry => absurd hentry (hnothing entry)
  · exact fun first _ hfirst => absurd hfirst (hnothing first)
  · intro call stage hcall
    cases (hcalls call).symm.trans hcall

theorem Inv.burn {refusedAfter : Option Nat} (hok : Provided groupId device (.burn refusedAfter))
    (hstep : step device (.burn refusedAfter) = some next) : Inv groupId next := by
  simp only [step] at hstep
  split at hstep
  next head rest repaired hphase =>
    cases hstep
    obtain ⟨hencrypted, hcalls⟩ := h.idle (by rw [hphase, Phase.quiet])
    refine { h with live := ?_, earlier := ?_, idle := fun _ => ⟨hencrypted, hcalls⟩ }
    · intro ratchet hclient
      simp only at hclient
      by_cases hsame : head.groupId = groupId
      · -- the burn of the group itself is not refused
        cases refusedAfter with
        | some burnt =>
          simp only [Provided, hphase] at hok
          exact absurd hsame hok
        | none =>
          rw [hsame, skipSendGenerations_self, map_eq_some_iff] at hclient
          obtain ⟨before, hbefore, rfl⟩ := hclient
          have := h.live before hbefore
          rw [hphase, owed_cons groupId head rest repaired _, if_pos hsame] at this
          rw [← add_assoc] at this
          exact this
      · rw [skipSendGenerations_ne _ hsame] at hclient
        have := h.live ratchet hclient
        rw [hphase, owed_cons groupId head rest repaired _, if_neg hsame, zero_add] at this
        exact this
    · intro frame hframe
      rw [hencrypted] at hframe
      cases hframe
  · cases hstep

theorem Inv.withPhase {phase : Phase Group} (hbefore : owed groupId device.phase = 0)
    (hphase : phase.quiet = false) : Inv groupId { device with phase } := by
  refine { h with live := ?_, idle := ?_ }
  · intro ratchet hclient
    have := h.live ratchet hclient
    rw [hbefore] at this
    exact Nat.le_add_right_of_le this
  · intro hquiet
    exact absurd (hphase.symm.trans hquiet) nofun

theorem Inv.finishRepair (hstep : step device (.finishRepair call) = some next) :
    Inv groupId next := by
  simp only [step] at hstep
  split at hstep
  next repaired hphase =>
    have howed : owed groupId device.phase = 0 := by
      rw [hphase]
      rfl
    split at hstep
    · cases hstep
      exact h.withPhase howed rfl
    · have hclosing : Inv groupId { device with phase := .closing call } :=
        h.withPhase howed rfl
      exact hclosing.startCheckpoint rfl hstep
  · cases hstep

theorem Inv.ready (hstep : step device .ready = some next) : Inv groupId next := by
  simp only [step] at hstep
  split at hstep
  next call hphase =>
    split at hstep
    · cases hstep
      exact h.withPhase (by rw [hphase]; rfl) rfl
    · cases hstep
  · cases hstep

end

/-! ## 5. Every interleaving -/

protected theorem Inv.step (h : Inv groupId device) {action : Action Group}
    (hok : Provided groupId device action)
    (hstep : step device action = some next) : Inv groupId next := by
  cases action with simp only [step] at hstep
  | encrypt other => exact h.encrypt hstep
  | note frame => exact h.note hstep
  | post frame => exact h.post hstep
  | start call =>
    split at hstep
    next hphase => exact h.startCheckpoint (quiet_up hphase) hstep
    · cases hstep
  | capture call => exact h.capture hstep
  | write call => exact h.write hstep
  | fail call => exact h.fail hstep
  | commit call => exact h.commit hstep
  | advance other => exact h.advance hok hstep
  | crash =>
    cases hstep
    exact h.crash
  | reload =>
    split at hstep
    next entry hphase hstored =>
      cases hstep
      exact h.restore hphase hstored hok
    next hphase hstored =>
      cases hstep
      exact h.freshStart hphase hstored
    · cases hstep
  | burn refusedAfter => exact h.burn hok hstep
  | finishRepair call => exact h.finishRepair hstep
  | ready => exact h.ready hstep

/-- A device between two sends: nothing in flight, a checkpoint of the live client
    stored, and no frame emitted yet in the epochs its groups are in. -/
def Device.begin (ledger : Ledger Group) (client : Client Group) (version : Nat) :
    Device Group where
  ledger
  durable := some ⟨version, client, ledger.emitted⟩
  phase := .up
  client
  snapshotSeq := version
  encrypted := []
  noted := []
  checkpoints _ := none
  history := []

theorem inv_begin {ledger : Ledger Group}
    (hledger : countOf ledger.persisted groupId ≤ countOf ledger.emitted groupId)
    (client : Client Group) (version : Nat) : Inv groupId (Device.begin ledger client version) := by
  have honly : ∀ entry, (Device.begin ledger client version).Holds entry →
      entry = ⟨version, client, ledger.emitted⟩ := by
    rintro entry (hentry | ⟨_, _, hcall⟩)
    · exact (some.inj hentry).symm
    · cases hcall
  refine ⟨hledger, fun _ _ => Nat.zero_le _, nofun, ?_, ?_, nofun, nofun⟩
  · intro entry hentry
    cases honly entry hentry
    exact ⟨Nat.le_refl _, Nat.le_refl _, fun _ _ => Nat.zero_le _⟩
  · intro first second hfirst hsecond _
    rw [honly first hfirst, honly second hsecond]

/-- **No send generation is reused across a crash.**  Whatever the interleaving of
    sends, checkpoints, crashes and reloads with the epoch changes and the burns that
    `Provided` admits, a frame that is encrypted, the first one after a reload included,
    uses a generation no smaller than the number of frames ever emitted in its epoch. -/
theorem generation_covers_emitted_frames {ledger : Ledger Group}
    (hledger : countOf ledger.persisted groupId ≤ countOf ledger.emitted groupId)
    (client : Client Group) (version : Nat) {actions : List (Action Group)}
    {device next : Device Group}
    (hok : EachStep step (Provided groupId) (.begin ledger client version) actions)
    (hrun : run step (.begin ledger client version) actions = some device)
    (hsend : step device (.encrypt groupId) = some next) :
    ∃ frame, next.encrypted = frame :: device.encrypted ∧ frame.groupId = groupId ∧
      framesIn device.history groupId frame.epoch ≤ frame.generation := by
  have hinv : Inv groupId device :=
    run_invariant (fun hinv hok hstep => hinv.step hok hstep) (inv_begin hledger client version)
      hok hrun
  simp only [step] at hsend
  split at hsend
  next hphase =>
    simp only [encryptForSend, Option.map_map, Option.map_eq_some_iff, comp] at hsend
    obtain ⟨ratchet, hclient, rfl⟩ := hsend
    refine ⟨_, rfl, rfl, ?_⟩
    have hlive := hinv.live ratchet hclient
    rw [owed_eq_zero (quiet_up hphase), add_zero] at hlive
    exact Nat.le_trans (Nat.le_add_right _ _) hlive
  · cases hsend

end Invariant

/-- Two frames leave around a checkpoint that is captured between them and was
    started before both; a third is encrypted and the page dies before it is
    counted.  The reload restores generation 1 and burns two. -/
def crashingSends : List (Action Nat) :=
  [.start 0, .encrypt 7, .note ⟨7, 3, 0⟩, .capture 0, .encrypt 7, .note ⟨7, 3, 1⟩,
   .post ⟨7, 3, 1⟩, .write 0, .commit 0, .encrypt 7, .crash, .reload, .burn none,
   .finishRepair 0, .capture 0, .write 0, .commit 0, .ready]

def sendingClient : Client Nat := fun groupId => if groupId = 7 then some ⟨3, 0⟩ else none

theorem generation_covers_emitted_frames_crashing :
    ∃ device next, run step (.begin .empty sendingClient 0) crashingSends = some device ∧
      step device (.encrypt 7) = some next ∧ framesIn device.history 7 3 = 2 ∧
      ∃ frame, next.encrypted = frame :: device.encrypted ∧ frame.groupId = 7 ∧
        framesIn device.history 7 frame.epoch ≤ frame.generation := by
  have hok : EachStep step (Provided 7) (.begin .empty sendingClient 0) crashingSends := by
    decide
  refine ⟨_, _, rfl, rfl, rfl, ?_⟩
  exact generation_covers_emitted_frames (le_refl _) sendingClient 0 hok rfl rfl

end MinesApp.SendRatchetLedger
