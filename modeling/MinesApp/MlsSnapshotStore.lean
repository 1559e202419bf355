import MinesApp.TransitionSystem
import MinesApp.VersionedRegister

/-!
# The write-if-newer MLS snapshot store

`frontend/src/lib/utils/hex.ts` tags every capture of the MLS client with the
next value of a module counter, lets the tag travel with the bytes through the
asynchronous sealing, and stores the sealed blob in one IndexedDB transaction
that compares the tag with the stored version.  Captures, sealing and
transactions of different saves finish in any order.

The Tauri branch of `saveMlsStateEncrypted` hands the bytes to the native side
and reaches neither the counter nor this store; captures are tagged only by
`WebMlsService`, so the model is the web branch.
-/

namespace MinesApp.MlsSnapshotStore

open TransitionSystem VersionedRegister Option

/-! ## 1. Snapshots and their versions

`_snapshotVersions` is a `WeakMap` from the byte array object to its tag, so a
snapshot is modelled as the bytes with the tag their object carries. -/

structure SnapshotTag where
  seq : Nat
  writer : String
deriving DecidableEq, Repr

structure Snapshot where
  bytes : List UInt8
  tag : Option SnapshotTag
deriving DecidableEq, Repr

def mlsSnapshotVersion (snapshot : Snapshot) : Option Nat := snapshot.tag.map SnapshotTag.seq

def mlsSnapshotWriter (snapshot : Snapshot) : Option String :=
  snapshot.tag.map SnapshotTag.writer

/-- The two module variables, `_snapshotSeq` and `_lastAcceptedWriter`. -/
structure Document where
  snapshotSeq : Nat
  lastAcceptedWriter : String
deriving DecidableEq, Repr

def tagMlsSnapshot (document : Document) (bytes : List UInt8) (writer : String) :
    Document × Snapshot :=
  ({ document with snapshotSeq := document.snapshotSeq + 1 },
   ⟨bytes, some ⟨document.snapshotSeq + 1, writer⟩⟩)

/-- `target` describes the state as of the capture of `source`, so it takes its tag;
    an untagged source leaves `target` as it was. -/
def propagateMlsSnapshotVersion (source target : Snapshot) : Snapshot :=
  match source.tag with
  | some tag => { target with tag := some tag }
  | none => target

def seedMlsSnapshotSeq (document : Document) (version : Option Nat) : Document :=
  match version with
  | some value =>
    if document.snapshotSeq < value then { document with snapshotSeq := value } else document
  | none => document

/-! ## 2. The store and its transaction -/

/-- The object store: the blob under `MLS_STATE_ENCRYPTED_KEY` and the number
    under `MLS_STATE_VERSION_KEY`.  IndexedDB stores the bytes only; the tag of the
    blob is kept here so that it can be compared with the stored number. -/
structure MlsDb where
  encrypted : Option Snapshot
  version : Option Nat
deriving DecidableEq, Repr

open MlsDb

/-- The body of the IndexedDB transaction of `saveMlsStateEncrypted`: read the
    stored version, refuse a tagged write that is older or equal, and put the
    blob with its version.  An untagged write always lands and leaves the version
    key alone. -/
def saveTransaction (db : MlsDb) (document : Document) (bytes : Snapshot) : MlsDb × Document :=
  let stored := db.version.getD 0
  let mine := (mlsSnapshotWriter bytes).getD "unnamed"
  match mlsSnapshotVersion bytes with
  | some version =>
    if version < stored then (db, document)
    else if version = stored then (db, document)
    else (⟨some bytes, some version⟩, { document with lastAcceptedWriter := mine })
  | none => ({ db with encrypted := some bytes }, document)

/-! ## 3. Interleaved saves -/

/-- Where one save stands: captured and being sealed, sealed, inside
    `saveMlsStateEncrypted` awaiting `openMlsDb`, or over. -/
inductive Stage where
  | captured (plain : Snapshot)
  | sealed (encrypted : Snapshot)
  | opening (encrypted : Snapshot)
  | resolved (encrypted : Snapshot)
  | rejected
deriving DecidableEq, Repr

structure Session where
  document : Document
  db : MlsDb
  saves : Nat → Option Stage

open Session

inductive Action where
  | capture (save : Nat) (bytes : List UInt8) (writer : String)
  | encrypt (save : Nat) (cipher : List UInt8)
  | save (save : Nat)
  | transact (save : Nat)
  | abort (save : Nat)
  | fail (save : Nat)
  | load
deriving DecidableEq, Repr

def Session.set (session : Session) (save : Nat) (stage : Stage) : Session :=
  { session with saves := Function.update session.saves save (some stage) }

def step (session : Session) : Action → Option Session
  | .capture save bytes writer =>
    match session.saves save with
    | none =>
      let (document, plain) := tagMlsSnapshot session.document bytes writer
      some ({ session with document }.set save (.captured plain))
    | some _ => none
  | .encrypt save cipher =>
    match session.saves save with
    | some (.captured plain) =>
      some (session.set save (.sealed (propagateMlsSnapshotVersion plain ⟨cipher, none⟩)))
    | _ => none
  | .save save =>
    match session.saves save with
    | some (.sealed encrypted) => some (session.set save (.opening encrypted))
    | _ => none
  | .transact save =>
    match session.saves save with
    | some (.opening encrypted) =>
      let (db, document) := saveTransaction session.db session.document encrypted
      some ({ session with db, document }.set save (.resolved encrypted))
    | _ => none
  -- the transaction aborts after its body ran: nothing was written, but the
  -- module variable keeps the writer it was given
  | .abort save =>
    match session.saves save with
    | some (.opening encrypted) =>
      let (_, document) := saveTransaction session.db session.document encrypted
      some ({ session with document }.set save .rejected)
    | _ => none
  -- sealing, opening the database or the version read failed
  | .fail save =>
    match session.saves save with
    | some (.captured _) | some (.sealed _) | some (.opening _) =>
      some (session.set save .rejected)
    | _ => none
  -- `loadMlsState` reads the version key and seeds the counter from it
  | .load =>
    some { session with document := seedMlsSnapshotSeq session.document session.db.version }

/-! ## 4. Versions of the saves in flight -/

def Stage.snapshot : Stage → Option Snapshot
  | .captured snapshot | .sealed snapshot | .opening snapshot | .resolved snapshot =>
    some snapshot
  | .rejected => none

def Stage.version (stage : Stage) : Option Nat := stage.snapshot.bind mlsSnapshotVersion

variable {session : Session} {document : Document} {save : Nat} {after before : Stage} {db : MlsDb}

theorem mlsSnapshotVersion_propagate {source : Snapshot} (target : Snapshot) {version : Nat}
    (hversion : mlsSnapshotVersion source = some version) :
    mlsSnapshotVersion (propagateMlsSnapshotVersion source target) = some version := by
  unfold propagateMlsSnapshotVersion
  cases htag : source.tag with
  | none => simp [mlsSnapshotVersion, htag] at hversion
  | some tag => simpa [mlsSnapshotVersion, htag] using hversion

@[simp] theorem saveTransaction_snapshotSeq (db : MlsDb) (document : Document) (bytes : Snapshot) :
    (saveTransaction db document bytes).2.snapshotSeq = document.snapshotSeq := by
  simp only [saveTransaction]
  split
  · split
    · rfl
    · split <;> rfl
  · rfl

/-- Every save still standing carries a version handed out by the counter since
    the start, and no two saves carry the same one. -/
structure VersionsOk (start : Nat) (session : Session) : Prop where
  tagged : ∀ save stage, session.saves save = some stage → stage ≠ .rejected →
    ∃ version, stage.version = some version
  bounds : ∀ save stage version, session.saves save = some stage → stage.version = some version →
    start < version ∧ version ≤ session.document.snapshotSeq
  distinct : ∀ save other stage stage' version, session.saves save = some stage →
    session.saves other = some stage' → stage.version = some version →
    stage'.version = some version → save = other
  seq : start ≤ session.document.snapshotSeq

theorem VersionsOk.withDocument {start : Nat} (h : VersionsOk start session)
    (hseq : session.document.snapshotSeq ≤ document.snapshotSeq)
    (db : MlsDb) : VersionsOk start { session with document, db } where
  tagged := h.tagged
  bounds save stage version hsave hversion :=
    let ⟨hlow, hhigh⟩ := h.bounds save stage version hsave hversion
    ⟨hlow, Nat.le_trans hhigh hseq⟩
  distinct := h.distinct
  seq := Nat.le_trans h.seq hseq

/-- A save moves to a stage whose version, if it has one, was handed out and is carried by no
    other save. -/
theorem VersionsOk.update {start : Nat} (h : VersionsOk start session)
    (hseq : session.document.snapshotSeq ≤ document.snapshotSeq)
    (htagged : after ≠ .rejected → ∃ version, after.version = some version)
    (hafter : ∀ version, after.version = some version →
      (start < version ∧ version ≤ document.snapshotSeq) ∧
      ∀ other stage, session.saves other = some stage → stage.version = some version →
        other = save) : VersionsOk start ({ session with document }.set save after) where
  tagged := forall_update rfl htagged fun other stage _ hold => h.tagged other stage hold
  bounds := by
    intro other stage version hother
    refine forall_update (P := fun _ stage => stage.version = some version →
      start < version ∧ version ≤ document.snapshotSeq) rfl
      (fun hversion => (hafter version hversion).1) ?_ other stage hother
    intro other stage _ hold hversion
    obtain ⟨hlow, hhigh⟩ := h.bounds other stage version hold hversion
    exact ⟨hlow, Nat.le_trans hhigh hseq⟩
  distinct := by
    intro first second stage stage' version hfirst hsecond hstage hstage'
    refine unique_update (R := fun stage stage' =>
      stage.version = some version ∧ stage'.version = some version) rfl And.symm ?_ ?_
      first second stage stage' hfirst hsecond ⟨hstage, hstage'⟩
    · intro one another entry entry' hone hanother hboth
      exact h.distinct one another entry entry' version hone hanother hboth.1 hboth.2
    · intro other entry hother hboth
      exact (hafter version hboth.1).2 other entry hother hboth.2
  seq := Nat.le_trans h.seq hseq

/-- A save that moves to a stage of the same version, or is rejected, keeps the
    versions in order. -/
theorem VersionsOk.move {start : Nat} (h : VersionsOk start session)
    (hbefore : session.saves save = some before)
    (hversion : after = .rejected ∨ (before ≠ .rejected ∧ after.version = before.version)) :
    VersionsOk start (session.set save after) := by
  refine h.update (Nat.le_refl _) (fun hkept => ?_) fun version hafter => ?_
  · obtain ⟨hne, heq⟩ := hversion.resolve_left hkept
    rw [heq]
    exact h.tagged save before hbefore hne
  · have hsame : before.version = some version := by
      rcases hversion with rfl | ⟨_, heq⟩
      · cases hafter
      · rwa [heq] at hafter
    refine ⟨h.bounds save before version hbefore hsame, fun other stage hother hstage => ?_⟩
    exact h.distinct _ _ _ _ version hother hbefore hstage hsame

/-- A capture takes the counter's next value, which no earlier save can carry. -/
theorem VersionsOk.capture {start : Nat} (h : VersionsOk start session)
    {bytes : List UInt8} {writer : String}
    {plain : Snapshot} (htag : tagMlsSnapshot session.document bytes writer = (document, plain)) :
    VersionsOk start ({ session with document }.set save (.captured plain)) := by
  obtain ⟨rfl, rfl⟩ := htag
  refine h.update (Nat.le_succ _) (fun _ => ⟨_, rfl⟩) fun version hversion => ?_
  obtain rfl : version = session.document.snapshotSeq + 1 := by
    simpa [Stage.version, Stage.snapshot, mlsSnapshotVersion] using hversion.symm
  refine ⟨⟨Nat.lt_succ_of_le h.seq, Nat.le_refl _⟩, fun other stage hother hstage => ?_⟩
  have hle := (h.bounds other stage _ hother hstage).2
  omega

/-! ## 5. The store as a write-if-newer register -/

/-- The version the transaction compares against. -/
def MlsDb.storedVersion (db : MlsDb) : Nat := db.version.getD 0

def MlsDb.register (db : MlsDb) : Option (Entry (Option Snapshot)) :=
  some ⟨db.storedVersion, db.encrypted⟩

theorem register_saveTransaction (db : MlsDb) (document : Document) {bytes : Snapshot}
    {version : Nat} (hversion : mlsSnapshotVersion bytes = some version) :
    (saveTransaction db document bytes).1.register = offer db.register ⟨version, some bytes⟩ := by
  simp only [saveTransaction, hversion, register, offer]
  by_cases hlt : db.version.getD 0 < version
  · have h1 : ¬ version < db.version.getD 0 := Nat.not_lt.mpr (Nat.le_of_lt hlt)
    have h2 : ¬ version = db.version.getD 0 := fun h => absurd hlt (by omega)
    simp [h1, h2, hlt, storedVersion]
  · have h1 : version < db.version.getD 0 ∨ version = db.version.getD 0 := by omega
    rcases h1 with h1 | h1
    · simp [h1, hlt, storedVersion]
    · simp [h1, storedVersion]

/-- `encrypted` was given to the store, with this version, by a call that has
    completed. -/
def Session.Saved (session : Session) (encrypted : Snapshot) (version : Nat) : Prop :=
  ∃ save, session.saves save = some (.resolved encrypted) ∧
    mlsSnapshotVersion encrypted = some version

def Session.Offered (session : Session) (entry : Entry (Option Snapshot)) : Prop :=
  ∃ encrypted, entry.value = some encrypted ∧ session.Saved encrypted entry.version

/-- A move of one save changes what was saved only when the save ends resolved. -/
theorem saved_set (hbefore : ∀ encrypted, session.saves save ≠ some (.resolved encrypted))
    (hafter : ∀ encrypted, after ≠ .resolved encrypted) (encrypted : Snapshot) (version : Nat) :
    (session.set save after).Saved encrypted version ↔ session.Saved encrypted version := by
  constructor
  · rintro ⟨other, hother, hversion⟩
    rcases update_eq_some_iff.mp hother with ⟨_, hsame⟩ | ⟨_, hold⟩
    · exact absurd (some.inj hsame) (hafter encrypted)
    · exact ⟨other, hold, hversion⟩
  · rintro ⟨other, hother, hversion⟩
    refine ⟨other, update_eq_some_iff.mpr (.inr ⟨?_, hother⟩), hversion⟩
    rintro rfl
    exact hbefore encrypted hother

theorem saved_resolve {saved : Snapshot} {savedVersion : Nat}
    (hbefore : session.saves save = some (.opening saved))
    (hsaved : mlsSnapshotVersion saved = some savedVersion) (encrypted : Snapshot) (version : Nat) :
    (session.set save (.resolved saved)).Saved encrypted version ↔
      session.Saved encrypted version ∨ (encrypted = saved ∧ version = savedVersion) := by
  constructor
  · rintro ⟨other, hother, hversion⟩
    rcases update_eq_some_iff.mp hother with ⟨_, hsame⟩ | ⟨_, hold⟩
    · cases hsame
      exact .inr ⟨rfl, some.inj (hversion.symm.trans hsaved)⟩
    · exact .inl ⟨other, hold, hversion⟩
  · rintro (⟨other, hother, hversion⟩ | ⟨rfl, rfl⟩)
    · refine ⟨other, update_eq_some_iff.mpr (.inr ⟨?_, hother⟩), hversion⟩
      rintro rfl
      cases hbefore.symm.trans hother
    · exact ⟨save, update_eq_some_iff.mpr (.inl ⟨rfl, rfl⟩), hsaved⟩

/-! ## 6. Every interleaving -/

def Session.start (document : Document) (db : MlsDb) : Session := ⟨document, db, fun _ => none⟩

/-- The versions in flight are in order, and the store holds the newest of what it
    started with and what completed calls gave it. -/
structure Inv (document : Document) (db : MlsDb) (session : Session) : Prop where
  versions : VersionsOk document.snapshotSeq session
  latest : Latest db.register session.db.register session.Offered

theorem inv_start (document : Document) (db : MlsDb) : Inv document db (.start document db) where
  versions := by
    refine ⟨?_, ?_, ?_, Nat.le_refl _⟩ <;> intro _ _ <;> simp [start]
  latest := by
    refine (Latest.start db.register).mono fun entry => ?_
    simp [Session.Offered, Session.Saved, start]

section

variable (h : Inv document db session)
include h

/-- Moves that neither touch the store nor resolve a save. -/
theorem Inv.move (hbefore : session.saves save = some before)
    (hpending : ∀ encrypted, some before ≠ some (.resolved encrypted))
    (hafter : ∀ encrypted, after ≠ .resolved encrypted)
    (hversion : after = .rejected ∨ (before ≠ .rejected ∧ after.version = before.version)) :
    Inv document db (session.set save after) where
  versions := h.versions.move hbefore hversion
  latest := h.latest.mono fun entry => exists_congr fun encrypted => and_congr_right fun _ =>
    (saved_set (hbefore ▸ hpending) hafter encrypted entry.version).symm

theorem Inv.withDocument {later : Document}
    (hseq : session.document.snapshotSeq ≤ later.snapshotSeq) :
    Inv document db { session with document := later } where
  versions := h.versions.withDocument hseq session.db
  latest := h.latest

theorem Inv.transact {encrypted : Snapshot}
    (hbefore : session.saves save = some (.opening encrypted)) :
    Inv document db ({ session with
          db := (saveTransaction session.db session.document encrypted).1,
          document := (saveTransaction session.db session.document encrypted).2 }.set save
        (.resolved encrypted)) := by
  obtain ⟨version, hversion⟩ := h.versions.tagged save _ hbefore (by simp)
  have htag : mlsSnapshotVersion encrypted = some version := hversion
  refine ⟨?_, ?_⟩
  · exact (h.versions.withDocument
      (Nat.le_of_eq (saveTransaction_snapshotSeq _ _ _).symm) _).move hbefore
      (.inr ⟨by simp, rfl⟩)
  · show Latest _ (saveTransaction session.db session.document encrypted).1.register _
    rw [register_saveTransaction _ _ htag]
    refine (h.latest.offer _).mono fun entry => ?_
    constructor
    · rintro (⟨blob, hvalue, hsaved⟩ | rfl)
      · exact ⟨blob, hvalue, (saved_resolve hbefore htag blob _).mpr (.inl hsaved)⟩
      · exact ⟨encrypted, rfl, (saved_resolve hbefore htag encrypted _).mpr (.inr ⟨rfl, rfl⟩)⟩
    · rintro ⟨blob, hvalue, hsaved⟩
      rcases (saved_resolve hbefore htag blob _).mp hsaved with hold | ⟨rfl, hnew⟩
      · exact .inl ⟨blob, hvalue, hold⟩
      · exact .inr (by cases entry; simp_all)

protected theorem Inv.step {next : Session} {action : Action}
    (hstep : step session action = some next) : Inv document db next := by
  cases action with simp only [step] at hstep
  | capture save bytes writer =>
    split at hstep
    next hnone =>
      cases hstep
      refine ⟨h.versions.capture rfl, h.latest.mono fun entry => ?_⟩
      -- a capture starts a save, so nothing new has been resolved
      refine exists_congr fun encrypted => and_congr_right fun _ => ?_
      exact (saved_set (by simp [hnone]) (by simp) encrypted entry.version).symm
    · cases hstep
  | encrypt save cipher =>
    split at hstep
    next plain hplain =>
      cases hstep
      obtain ⟨version, hversion⟩ := h.versions.tagged save _ hplain (by simp)
      refine h.move hplain (by simp) (by simp) (.inr ⟨by simp, ?_⟩)
      exact (mlsSnapshotVersion_propagate _ hversion).trans hversion.symm
    · cases hstep
  | save save =>
    split at hstep
    next encrypted hsealed =>
      cases hstep
      exact h.move hsealed (by simp) (by simp) (.inr ⟨by simp, rfl⟩)
    · cases hstep
  | transact save =>
    split at hstep
    next encrypted hopening =>
      cases hstep
      exact h.transact hopening
    · cases hstep
  | abort save =>
    split at hstep
    next encrypted hopening =>
      cases hstep
      exact (h.withDocument (Nat.le_of_eq (saveTransaction_snapshotSeq _ _ _).symm)).move
        hopening (by simp) (by simp) (.inl rfl)
    · cases hstep
  | fail save =>
    split at hstep
    next hpending =>
      cases hstep
      exact h.move hpending (by simp) (by simp) (.inl rfl)
    next hpending =>
      cases hstep
      exact h.move hpending (by simp) (by simp) (.inl rfl)
    next hpending =>
      cases hstep
      exact h.move hpending (by simp) (by simp) (.inl rfl)
    · cases hstep
  | load =>
    cases hstep
    apply h.withDocument
    unfold seedMlsSnapshotSeq
    split
    · split
      next hlt => exact Nat.le_of_lt hlt
      · exact Nat.le_refl _
    · exact Nat.le_refl _

end

theorem inv_of_run {actions : List Action}
    (hrun : run step (.start document db) actions = some session) : Inv document db session :=
  invariant_of_run (fun h => h.step) (inv_start document db) hrun

theorem storedVersion_step_le {next : Session} {action : Action}
    (hstep : step session action = some next)
    (htagged : ∀ save encrypted, session.saves save = some (.opening encrypted) →
      ∃ version, mlsSnapshotVersion encrypted = some version) :
    session.db.storedVersion ≤ next.db.storedVersion := by
  cases action with simp only [step] at hstep
  | transact save =>
    split at hstep
    next encrypted hopening =>
      cases hstep
      obtain ⟨version, hversion⟩ := htagged save encrypted hopening
      have hoffer := register_saveTransaction session.db session.document hversion
      obtain ⟨later, hlater, hle⟩ := atMost_offer session.db.register ⟨version, some encrypted⟩
        ⟨_, _⟩ rfl
      rw [← hoffer] at hlater
      cases hlater
      exact hle
    · cases hstep
  | load =>
    cases hstep
    exact Nat.le_refl _
  | _ =>
    -- no other step writes to the store
    split at hstep <;> cases hstep <;> exact Nat.le_refl _

/-- The register says everything about the store once its version is positive. -/
theorem db_eq_of_register {encrypted : Snapshot} {version : Nat}
    (hregister : db.register = some ⟨version, some encrypted⟩) (hpos : 0 < version) :
    db = ⟨some encrypted, some version⟩ := by
  obtain ⟨blob, stored⟩ := db
  simp only [register, storedVersion, some.injEq, Entry.mk.injEq] at hregister
  obtain ⟨hversion, rfl⟩ := hregister
  cases stored with
  | none =>
    simp only [getD_none] at hversion
    omega
  | some value => simp_all

/-- **The store keeps the newest capture.**  In every interleaving of captures,
    seals, transactions, failures and loads: the stored version never decreases;
    every completed call carries a version, above the one the session began with
    when the counter was seeded from it; and once a completed call is newer than
    what was stored at the start, the store holds the blob of the completed call
    with the greatest version, under that very version.  If no completed call is
    newer, the store is what it was. -/
theorem stored_snapshot_newest {document : Document} {db : MlsDb} {first second : List Action}
    {middle final : Session} (hfirst : run step (.start document db) first = some middle)
    (hsecond : run step middle second = some final) :
    middle.db.storedVersion ≤ final.db.storedVersion ∧
    (∀ save encrypted, final.saves save = some (.resolved encrypted) →
      ∃ version, mlsSnapshotVersion encrypted = some version ∧
        (db.storedVersion ≤ document.snapshotSeq → db.storedVersion < version)) ∧
    ((∃ encrypted version, final.Saved encrypted version ∧ db.storedVersion < version) →
      ∃ encrypted version, final.Saved encrypted version ∧
        final.db = ⟨some encrypted, some version⟩ ∧
        ∀ other otherVersion, final.Saved other otherVersion →
          otherVersion < version ∨ other = encrypted) ∧
    ((∀ encrypted version, final.Saved encrypted version → version ≤ db.storedVersion) →
      final.db.register = db.register) := by
  have hinv : Inv document db final := inv_of_run (run_append_eq_some.mpr ⟨middle, hfirst, hsecond⟩)
  refine ⟨?_, ?_, ?_, ?_⟩
  · refine run_relation (fun early late => early.db.storedVersion ≤ late.db.storedVersion)
      (fun _ => Nat.le_refl _) Nat.le_trans (fun h _ hstep => Inv.step h hstep) ?_
      (inv_of_run hfirst) (eachStep_anyStep _ _) hsecond
    intro state action next h _ hstep
    exact storedVersion_step_le hstep fun save encrypted hopening =>
      h.versions.tagged save _ hopening (by simp)
  · intro save encrypted hresolved
    obtain ⟨version, hversion⟩ := hinv.versions.tagged save _ hresolved (by simp)
    have hlow := (hinv.versions.bounds save _ version hresolved hversion).1
    exact ⟨version, hversion, fun hseeded => Nat.lt_of_le_of_lt hseeded hlow⟩
  · rintro ⟨newer, newerVersion, hnewer, hlt⟩
    obtain ⟨held, hheld, hle⟩ := hinv.latest.above ⟨newerVersion, some newer⟩ ⟨newer, rfl, hnewer⟩
    rcases hinv.latest.source with hstart | ⟨_, hsame, ⟨encrypted, hvalue, hsaved⟩, _⟩
    · cases hstart.symm.trans hheld
      exact absurd hlt (Nat.not_lt.mpr hle)
    · cases hsame.symm.trans hheld
      obtain ⟨version, blob⟩ := held
      cases hvalue
      refine ⟨encrypted, version, hsaved, db_eq_of_register hheld ?_, ?_⟩
      · exact Nat.lt_of_le_of_lt (Nat.zero_le _) (Nat.lt_of_lt_of_le hlt hle)
      · intro other otherVersion hother
        obtain ⟨kept, hkept, hupper⟩ :=
          hinv.latest.above ⟨otherVersion, some other⟩ ⟨other, rfl, hother⟩
        cases hkept.symm.trans hheld
        rcases Nat.lt_or_eq_of_le hupper with hsmaller | rfl
        · exact .inl hsmaller
        · -- versions are never shared, so this is the same save
          obtain ⟨save, hsave, hsaveVersion⟩ := hsaved
          obtain ⟨save', hsave', hsaveVersion'⟩ := hother
          cases hinv.versions.distinct save save' _ _ _ hsave hsave' hsaveVersion hsaveVersion'
          cases hsave.symm.trans hsave'
          exact .inr rfl
  · intro hnone
    rcases hinv.latest.source with hstart | ⟨entry, _, ⟨encrypted, _, hsaved⟩, hnewer⟩
    · exact hstart
    · exact absurd (hnone encrypted _ hsaved) (Nat.not_le.mpr (hnewer _ rfl))

/-- Two saves whose transactions run in the reverse order of their captures. -/
def overtakenSaves : List Action :=
  [.capture 0 [1] "periodic", .capture 1 [2] "flush", .encrypt 1 [12], .encrypt 0 [11],
   .save 0, .save 1, .transact 1, .transact 0]

theorem stored_snapshot_newest_overtaken :
    ∃ final, run step (.start ⟨0, "(nothing yet this session)"⟩ ⟨none, none⟩) overtakenSaves =
        some final ∧
      ∃ encrypted version, final.Saved encrypted version ∧
        final.db = ⟨some encrypted, some version⟩ ∧
        ∀ other otherVersion, final.Saved other otherVersion →
          otherVersion < version ∨ other = encrypted := by
  refine ⟨_, rfl, ?_⟩
  have hnewest := stored_snapshot_newest
    (run_nil (start ⟨0, "(nothing yet this session)"⟩ ⟨none, none⟩))
    (rfl : run step _ overtakenSaves = some _)
  exact hnewest.2.2.1 ⟨_, _, ⟨1, rfl, rfl⟩, by decide⟩

end MinesApp.MlsSnapshotStore
