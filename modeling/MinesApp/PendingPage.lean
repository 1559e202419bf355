import Mathlib.Algebra.GroupWithZero.Nat
import Mathlib.Data.List.Sort
import Mathlib.Data.List.TakeWhile

/-!
# One page of a device's pending queue

`fetchMessages` in `messaging.service.ts` reads the queue in chunks of fifty rows, oldest
first, until the page has as many rows or bytes as it may carry.  A page has at least one
row, and it never ends between two rows of one instant, because the client asks for the
next page by instant.  Rows of a group that can no longer receive are dropped after the page
has been filled, so they count against its budget.
-/

namespace MinesApp.PendingQueue

open List

/-! ## 1. Rows -/

def pendingPageMaxBytes : Nat := 1024 * 1024

def pendingFetchChunkRows : Nat := 50

/-- A base64 text: how long it is, and how many bytes it decodes to, if it decodes. -/
structure Proto where
  length : Nat
  decoded : Option Nat
deriving DecidableEq, Repr

/-- A row of `queued_message` for one device; `createdAt` is in milliseconds. -/
structure QueuedMessage where
  id : Nat
  createdAt : Nat
  groupId : Option Nat
  type : Option String
  proto : Option Proto
  ratchetTree : Option Proto
deriving DecidableEq, Repr

open QueuedMessage

def QueuedMessage.size (row : QueuedMessage) : Nat := (row.proto.map Proto.length).getD 0

/-- What `dm_groups` says of a group. -/
inductive GroupState where
  | live
  | tombstoned
  | absent
deriving DecidableEq, Repr

/-- The row is of no group, or of one that can still receive. -/
def QueuedMessage.deliverable (groups : Nat → GroupState) (row : QueuedMessage) : Bool :=
  row.groupId.all fun groupId => groups groupId = .live

/-! ## 2. Filling a page -/

inductive CappedBy where
  | bytes
  | rows
deriving DecidableEq, Repr

structure Fill where
  messages : List QueuedMessage
  pageBytes : Nat
  cappedBy : Option CappedBy
  done : Bool
deriving DecidableEq, Repr

open Fill

def Fill.empty : Fill := ⟨[], 0, none, false⟩

section

variable (safeLimit : Nat) (fill : Fill)

/-- The cap that the next row meets; the first row of a page meets none. -/
def Fill.cap (row : QueuedMessage) : Option CappedBy :=
  if fill.cappedBy = none ∧ fill.messages ≠ [] then
    if fill.pageBytes + row.size > pendingPageMaxBytes then some .bytes
    else if fill.messages.length ≥ safeLimit then some .rows
    else none
  else fill.cappedBy

def Fill.sameInstant (row : QueuedMessage) : Bool :=
  fill.messages.getLast?.any fun last => row.createdAt = last.createdAt

/-- One turn of the loop over a chunk; `done` is the `break`. -/
def Fill.row (row : QueuedMessage) : Fill :=
  if fill.done then fill
  else if fill.cap safeLimit row ≠ none ∧ fill.sameInstant row = false then
    { fill with cappedBy := fill.cap safeLimit row, done := true }
  else
    ⟨fill.messages ++ [row], fill.pageBytes + row.size, fill.cap safeLimit row, false⟩

def Fill.rows (rows : List QueuedMessage) : Fill :=
  rows.foldl (row safeLimit) fill

end

/-- The loop over chunks.  `query` answers the successive statements, each of which orders
    the rows anew; `fuel` bounds the number of statements. -/
def readChunks (query : Nat → List QueuedMessage) (safeLimit : Nat) :
    Nat → Nat → Nat → Fill → Fill
  | 0, _, _, fill => fill
  | fuel + 1, statement, offset, fill =>
    let chunk := ((query statement).drop offset).take pendingFetchChunkRows
    if chunk = [] then fill
    else if (fill.rows safeLimit chunk).done then fill.rows safeLimit chunk
    else if chunk.length < pendingFetchChunkRows then fill.rows safeLimit chunk
    else
      readChunks query safeLimit fuel (statement + 1) (offset + chunk.length)
        (fill.rows safeLimit chunk)

/-- `ORDER BY "createdAt"`, with the ties broken by `rank`. -/
def Earlier (rank : QueuedMessage → Nat) (first second : QueuedMessage) : Prop :=
  first.createdAt < second.createdAt ∨
    (first.createdAt = second.createdAt ∧ rank first ≤ rank second)

instance (rank : QueuedMessage → Nat) : DecidableRel (Earlier rank) := fun _ _ =>
  inferInstanceAs (Decidable (_ ∨ _))

def beyond (after : Option Nat) (row : QueuedMessage) : Bool :=
  after.all fun instant => instant < row.createdAt

/-- The rows that a statement of the fetch returns before `skip` and `take`. -/
def pendingRows (queue : List QueuedMessage) (after : Option Nat) (rank : QueuedMessage → Nat) :
    List QueuedMessage :=
  (queue.filter (beyond after)).insertionSort (Earlier rank)

section

variable (groups : Nat → GroupState) (queue : List QueuedMessage) (limit : Nat) (after : Option Nat)

section

variable (ranks : Nat → QueuedMessage → Nat)

def readPage : List QueuedMessage :=
  (readChunks (fun statement => pendingRows queue after (ranks statement))
    (min (max limit 1) 1000) (queue.length + 1) 0 0 .empty).messages

/-- What is left of the queue once the rows of the page's absent groups are purged. -/
def purgeOrphanGroups (page queue : List QueuedMessage) : List QueuedMessage :=
  let orphaned := (page.filterMap groupId).filter fun groupId =>
    groups groupId = .absent
  queue.filter fun row => row.groupId.all fun groupId => groupId ∉ orphaned

/-- The rows that are answered, and the queue afterwards. -/
def fetchMessages : List QueuedMessage × List QueuedMessage :=
  let messages := readPage queue limit after ranks
  (messages.filter (deliverable groups), purgeOrphanGroups groups messages queue)

end

end

/-! ## 3. What a page holds -/

variable {safeLimit : Nat} {groups : Nat → GroupState} {queue rows : List QueuedMessage}
  {after : Option Nat} {row : QueuedMessage} {fill : Fill}

theorem Fill.rows_done (h : fill.done = true) (rows : List QueuedMessage) :
    fill.rows safeLimit rows = fill := by
  induction rows with
  | nil => rfl
  | cons row rest ih =>
    have hrow : fill.row safeLimit row = fill := by rw [Fill.row, if_pos h]
    rw [rows, foldl_cons, hrow]
    exact ih

theorem Fill.rows_append (safeLimit : Nat) (fill : Fill) (first second : List QueuedMessage) :
    fill.rows safeLimit (first ++ second) = (fill.rows safeLimit first).rows safeLimit second :=
  foldl_append ..

/-- Where the statements agree on the order, the chunks are one list cut into pieces. -/
theorem readChunks_eq (rows : List QueuedMessage) :
    ∀ {fuel statement offset : Nat} {fill : Fill}, rows.length < fuel + offset →
      readChunks (fun _ => rows) safeLimit fuel statement offset fill =
        fill.rows safeLimit (rows.drop offset)
  | 0, statement, offset, fill, hfuel => by
    rw [drop_eq_nil_of_le (by omega)]
    rfl
  | fuel + 1, statement, offset, fill, hfuel => by
    rw [readChunks]
    have hsplit := take_append_drop pendingFetchChunkRows (rows.drop offset)
    split
    next hnil =>
      rw [take_eq_nil_iff] at hnil
      rcases hnil with hzero | hnil
      · cases hzero
      · rw [hnil]
        rfl
    · split
      next hdone => rw [← hsplit, rows_append, hsplit, rows_done hdone]
      · split
        next hshort =>
          have hall : (rows.drop offset).take pendingFetchChunkRows = rows.drop offset := by
            rw [length_take] at hshort
            exact take_of_length_le (by omega)
          rw [hall]
        next hfull =>
          have hlength : ((rows.drop offset).take pendingFetchChunkRows).length =
              pendingFetchChunkRows := by
            rw [length_take] at hfull ⊢
            omega
          rw [hlength, readChunks_eq rows (by
            have hpos : 0 < pendingFetchChunkRows := by decide
            omega)]
          rw [← drop_drop, ← rows_append, hsplit]

theorem Fill.rows_cons (safeLimit : Nat) (fill : Fill) (row : QueuedMessage)
    (rest : List QueuedMessage) :
    fill.rows safeLimit (row :: rest) = (fill.row safeLimit row).rows safeLimit rest := rfl

theorem Fill.row_cases (safeLimit : Nat) (row : QueuedMessage) (hdone : fill.done = false) :
    fill.row safeLimit row =
        ⟨fill.messages ++ [row], fill.pageBytes + row.size, fill.cap safeLimit row, false⟩ ∨
      (fill.cap safeLimit row ≠ none ∧ fill.sameInstant row = false ∧ fill.row safeLimit row =
          { fill with cappedBy := fill.cap safeLimit row, done := true }) := by
  rw [Fill.row, if_neg (by simp [hdone])]
  split
  next hcapped => exact .inr ⟨hcapped.1, hcapped.2, rfl⟩
  · exact .inl rfl

theorem Fill.row_closes
    (h : fill.done = true ∨ (fill.cap safeLimit row ≠ none ∧ fill.sameInstant row = false)) :
    (fill.row safeLimit row).done = true ∧ (fill.row safeLimit row).messages = fill.messages := by
  rw [Fill.row]
  split
  next hdone => exact ⟨hdone, rfl⟩
  next hopen =>
    rw [if_pos (h.resolve_left hopen)]
    exact ⟨rfl, rfl⟩

theorem Fill.row_messages (safeLimit : Nat) (fill : Fill) (row : QueuedMessage) :
    (fill.row safeLimit row).messages = fill.messages ∨
      (fill.row safeLimit row).messages = fill.messages ++ [row] := by
  cases hdone : fill.done with
  | true => exact .inl (by rw [Fill.row, if_pos hdone])
  | false =>
    rcases row_cases safeLimit row hdone with hrow | ⟨_, _, hrow⟩
    · exact .inr (by rw [hrow])
    · exact .inl (by rw [hrow])

theorem Fill.subset_rows (safeLimit : Nat) (rows : List QueuedMessage) :
    ∀ (fill : Fill), fill.messages ⊆ (fill.rows safeLimit rows).messages := by
  induction rows with
  | nil => exact fun fill => List.Subset.refl _
  | cons row rest ih =>
    intro fill
    refine List.Subset.trans ?_ (ih (fill.row safeLimit row))
    rcases row_messages safeLimit fill row with hrow | hrow
    · exact hrow ▸ List.Subset.refl _
    · exact hrow ▸ subset_append_left _ _

theorem Fill.rows_subset (safeLimit : Nat) (rows : List QueuedMessage) :
    ∀ (fill : Fill), (fill.rows safeLimit rows).messages ⊆ fill.messages ++ rows := by
  induction rows with
  | nil => exact fun fill => subset_append_left _ _
  | cons row rest ih =>
    intro fill taken htaken
    have htaken := ih (fill.row safeLimit row) htaken
    rcases row_messages safeLimit fill row with hrow | hrow <;> rw [hrow] at htaken <;>
      simp only [mem_append, mem_cons, not_mem_nil, or_false] at htaken ⊢ <;>
      tauto

theorem Fill.rows_open :
    ∀ {fill : Fill}, (fill.rows safeLimit rows).done = false →
      (fill.rows safeLimit rows).messages = fill.messages ++ rows ∧
        (fill.rows safeLimit rows).pageBytes = fill.pageBytes + (rows.map size).sum := by
  induction rows with
  | nil => exact fun _ => ⟨(append_nil _).symm, rfl⟩
  | cons row rest ih =>
    intro fill hopen
    have hdone : fill.done = false := by
      by_contra hclosed
      rw [rows_done (by simpa using hclosed)] at hopen
      exact hclosed hopen
    rw [rows_cons] at hopen ⊢
    rcases row_cases safeLimit row hdone with hrow | ⟨_, _, hrow⟩
    · obtain ⟨hmessages, hbytes⟩ := ih hopen
      rw [hmessages, hbytes, hrow]
      simp only [append_assoc, singleton_append, map_cons, sum_cons, add_assoc, and_self]
    · rw [hrow, rows_done rfl] at hopen
      cases hopen

/-- A closed fill stopped before a row of another instant than the last it took. -/
theorem Fill.rows_closed :
    ∀ {fill : Fill}, fill.done = false → (fill.rows safeLimit rows).done = true →
      ∃ taken row tail, rows = taken ++ row :: tail ∧
        (fill.rows safeLimit rows).messages = fill.messages ++ taken ∧
        (fill.rows safeLimit taken).cap safeLimit row ≠ none ∧
        (fill.rows safeLimit taken).sameInstant row = false ∧
        (fill.rows safeLimit taken).done = false := by
  induction rows with intro fill hopen hclosed
  | nil =>
    cases hopen.symm.trans hclosed
  | cons row rest ih =>
    rw [rows_cons] at hclosed ⊢
    rcases row_cases safeLimit row hopen with hrow | ⟨hcap, hinstant, hrow⟩
    · obtain ⟨taken, other, tail, hrest, hmessages, hfound⟩ := ih (by rw [hrow]) hclosed
      refine ⟨row :: taken, other, tail, by rw [hrest, cons_append], ?_, hfound⟩
      rw [hmessages, hrow, append_assoc, singleton_append]
    · refine ⟨[], row, rest, rfl, ?_, hcap, hinstant, hopen⟩
      rw [hrow, rows_done rfl, append_nil]

theorem Fill.cap_none (hcapped : fill.cappedBy = none) (hfits : fill.messages = [] ∨
      (fill.pageBytes + row.size ≤ pendingPageMaxBytes ∧ fill.messages.length < safeLimit)) :
    fill.cap safeLimit row = none := by
  rw [cap]
  split
  next hnonempty =>
    rcases hfits with hnil | ⟨hbytes, hlength⟩
    · exact absurd hnil hnonempty.2
    · rw [if_neg (by omega), if_neg (by omega)]
  · exact hcapped

theorem Fill.cap_ne_none (hnonempty : fill.messages ≠ [])
    (hfull : ¬(fill.pageBytes + row.size ≤ pendingPageMaxBytes ∧
      fill.messages.length < safeLimit)) : fill.cap safeLimit row ≠ none := by
  rw [cap]
  split
  · split
    · simp
    rw [if_pos (by omega)]
    simp
  next hcapped => exact fun hnone => hcapped ⟨hnone, hnonempty⟩

theorem Fill.rows_uncapped :
    ∀ {fill : Fill}, fill.cappedBy = none → fill.done = false →
      fill.pageBytes + (rows.map size).sum ≤ pendingPageMaxBytes →
      fill.messages.length + rows.length ≤ safeLimit →
      (fill.rows safeLimit rows).done = false := by
  induction rows with
  | nil => exact fun _ hdone _ _ => hdone
  | cons row rest ih =>
    intro fill hcapped hdone hbytes hlength
    rw [map_cons, sum_cons] at hbytes
    rw [length_cons] at hlength
    have hcap : fill.cap safeLimit row = none := cap_none hcapped (.inr ⟨by omega, by omega⟩)
    rw [rows_cons]
    rcases row_cases safeLimit row hdone with hrow | ⟨hfull, _, _⟩
    · rw [hrow]
      refine ih hcap rfl ?_ ?_
      · rw [← add_assoc] at hbytes
        exact hbytes
      · rw [length_append, length_singleton]
        omega
    · exact absurd hcap hfull

/-! ## 4. A page of ordered rows -/

def Ordered (rows : List QueuedMessage) : Prop :=
  rows.Pairwise fun first second => first.createdAt ≤ second.createdAt

theorem Ordered.le_last {last : QueuedMessage} (hordered : Ordered rows)
    (hlast : rows.getLast? = some last) (hrow : row ∈ rows) : row.createdAt ≤ last.createdAt := by
  obtain ⟨others, rfl⟩ := getLast?_eq_some_iff.mp hlast
  rcases mem_append.mp hrow with hearlier | hsame
  · exact (pairwise_append.mp hordered).2.2 row hearlier last (by simp)
  · exact (mem_singleton.mp hsame) ▸ le_rfl

/-- The page that the loop fills from `rows`. -/
def pageOf (safeLimit : Nat) (rows : List QueuedMessage) : List QueuedMessage :=
  (empty.rows safeLimit rows).messages

/-- **A page ends between two instants.**  It is the head of the rows, it is not empty unless
    they are, and every row it leaves is later than every row it holds. -/
theorem pageOf_spec (hordered : Ordered rows) :
    ∃ rest, rows = pageOf safeLimit rows ++ rest ∧ (pageOf safeLimit rows = [] → rows = []) ∧
      ∀ seen ∈ pageOf safeLimit rows, ∀ row ∈ rest, seen.createdAt < row.createdAt := by
  cases hdone : (empty.rows safeLimit rows).done with
  | false =>
    have hall : pageOf safeLimit rows = rows := (rows_open hdone).1
    refine ⟨[], by rw [hall, append_nil], fun hnil => hall ▸ hnil, ?_⟩
    exact fun _ _ row hrow => absurd hrow not_mem_nil
  | true =>
    obtain ⟨taken, next, tail, rfl, hpage, hcap, hinstant, hopen⟩ := rows_closed rfl hdone
    have hpage : pageOf safeLimit (taken ++ next :: tail) = taken := hpage
    have htaken : (empty.rows safeLimit taken).messages = taken := (rows_open hopen).1
    rw [hpage]
    have hnonempty : taken ≠ [] := by
      rintro rfl
      exact hcap (cap_none rfl (.inl rfl))
    refine ⟨next :: tail, rfl, fun hnil => absurd hnil hnonempty, fun seen hseen row hrow => ?_⟩
    obtain ⟨hbefore, hafter, hcross⟩ := pairwise_append.mp hordered
    -- the last row taken is the latest of the page, and is not of the instant of the next
    obtain ⟨last, hlast⟩ := Option.ne_none_iff_exists'.mp
      fun hnone => hnonempty (getLast?_eq_none_iff.mp hnone)
    have hother : last.createdAt ≠ next.createdAt := by
      rw [sameInstant, htaken, hlast] at hinstant
      simpa [eq_comm] using hinstant
    have hnext : last.createdAt < next.createdAt :=
      lt_of_le_of_ne (hcross last (mem_of_getLast? hlast) next (by simp)) hother
    have hseen : seen.createdAt ≤ last.createdAt := Ordered.le_last hbefore hlast hseen
    have hrow : next.createdAt ≤ row.createdAt := by
      rcases mem_cons.mp hrow with hsame | hlater
      · exact hsame ▸ le_rfl
      · exact (pairwise_cons.mp hafter).1 row hlater
    omega

/-- **The budget of a page.**  The first row of an instant is in the page exactly when it is
    the first row of all, or when it stays within both caps together with every earlier row. -/
theorem mem_pageOf_iff {before tail : List QueuedMessage}
    {first : QueuedMessage} (hbefore : ∀ row ∈ before, row.createdAt < first.createdAt) :
    first ∈ pageOf safeLimit (before ++ first :: tail) ↔
      before = [] ∨ ((before.map size).sum + first.size ≤ pendingPageMaxBytes ∧
        before.length < safeLimit) := by
  have hfresh : first ∉ before := fun hmem => lt_irrefl _ (hbefore first hmem)
  have hsplit : pageOf safeLimit (before ++ first :: tail) =
      (((empty.rows safeLimit before).row safeLimit first).rows safeLimit tail).messages := by
    rw [pageOf, rows_append, rows_cons]
  rw [hsplit]
  constructor
  · intro hmem
    by_contra hover
    obtain ⟨hnonempty, hover⟩ := not_or.mp hover
    have hstop : (empty.rows safeLimit before).done = true ∨
        ((empty.rows safeLimit before).cap safeLimit first ≠ none ∧
          (empty.rows safeLimit before).sameInstant first = false) := by
      cases hdone : (empty.rows safeLimit before).done with
      | true => exact .inl rfl
      | false =>
        obtain ⟨hmessages, hbytes⟩ := rows_open hdone
        have hmessages : (empty.rows safeLimit before).messages = before := hmessages
        have hbytes : (empty.rows safeLimit before).pageBytes =
            (before.map size).sum := hbytes.trans (zero_add _)
        refine .inr ⟨cap_ne_none (by rwa [hmessages]) (by rwa [hmessages, hbytes]), ?_⟩
        rw [sameInstant, hmessages]
        cases hlast : before.getLast? with
        | none => rfl
        | some last => simpa using (hbefore last (mem_of_getLast? hlast)).ne'
    obtain ⟨hclosed, hmessages⟩ := row_closes hstop
    rw [rows_done hclosed, hmessages] at hmem
    exact hfresh (rows_subset safeLimit before empty hmem)
  · intro hfits
    refine subset_rows safeLimit tail _ ?_
    have hopen : (empty.rows safeLimit (before ++ [first])).done = false := by
      rcases hfits with rfl | ⟨hbytes, hlength⟩
      · have hempty : empty.done = false := rfl
        rcases row_cases safeLimit first hempty with hrow | ⟨hcap, _, _⟩
        · exact congrArg done hrow
        · exact absurd (cap_none rfl (.inl rfl)) hcap
      · refine rows_uncapped rfl rfl ?_ ?_
        · simpa [empty] using hbytes
        · simpa [empty] using Nat.succ_le_of_lt hlength
    have hmessages := (rows_open hopen).1
    rw [rows_append] at hmessages
    exact hmessages ▸ by simp

/-- The instant of the row has no row to answer. -/
def undeliverableInstant (groups : Nat → GroupState) (rows : List QueuedMessage)
    (row : QueuedMessage) : Bool :=
  rows.all fun other => other.createdAt = row.createdAt → other.deliverable groups = false

/-- What comes before the first instant that has a row to answer leaves room for that
    instant: there is nothing before it, or its first row stays within both caps. -/
def FitsPage (groups : Nat → GroupState) (safeLimit : Nat) (rows : List QueuedMessage) : Prop :=
  ∀ first ∈ (rows.dropWhile (undeliverableInstant groups rows)).head?,
    let before := rows.takeWhile (undeliverableInstant groups rows)
    before = [] ∨ ((before.map size).sum + first.size ≤ pendingPageMaxBytes ∧
      before.length < safeLimit)

instance (groups : Nat → GroupState) (safeLimit : Nat) (rows : List QueuedMessage) :
    Decidable (FitsPage groups safeLimit rows) :=
  inferInstanceAs (Decidable (∀ first ∈ (rows.dropWhile _).head?, _ ∨ (_ ∧ _)))

theorem undeliverableInstant_eq_true :
    undeliverableInstant groups rows row = true ↔
      ∀ other ∈ rows, other.createdAt = row.createdAt → other.deliverable groups = false := by
  simp only [undeliverableInstant, all_eq_true, decide_eq_true_eq]

/-- **When a page answers something.**  While the rows hold one to answer, the page holds one
    exactly when the rows before it leave room. -/
theorem pageOf_deliverable_iff (hordered : Ordered rows)
    (hsome : ∃ row ∈ rows, row.deliverable groups = true) :
    (∃ row ∈ pageOf safeLimit rows, row.deliverable groups = true) ↔
      FitsPage groups safeLimit rows := by
  obtain ⟨before, hbefore⟩ :
    ∃ before, rows.takeWhile (undeliverableInstant groups rows) = before := ⟨_, rfl⟩
  obtain ⟨later, hlater⟩ :
    ∃ later, rows.dropWhile (undeliverableInstant groups rows) = later := ⟨_, rfl⟩
  have hrows : rows = before ++ later := by
    rw [← hbefore, ← hlater, takeWhile_append_dropWhile]
  have hhead : ∀ row ∈ before, undeliverableInstant groups rows row = true := by
    intro row hrow
    rw [← hbefore] at hrow
    exact mem_takeWhile_imp hrow
  have hanswered : ∀ row ∈ rows, row.deliverable groups = true → row ∈ later := by
    intro row hrow hdeliverable
    rw [hrows, mem_append] at hrow
    refine hrow.resolve_left fun hmem => ?_
    have hnot := undeliverableInstant_eq_true.mp (hhead row hmem) row
      (hrows ▸ mem_append_left later hmem) rfl
    cases hnot.symm.trans hdeliverable
  cases later with
  | nil =>
    obtain ⟨row, hrow, hdeliverable⟩ := hsome
    exact absurd (hanswered row hrow hdeliverable) not_mem_nil
  | cons first tail =>
    have hfirst : undeliverableInstant groups rows first = false := by
      have hnot := head?_dropWhile_not (undeliverableInstant groups rows) rows
      rw [hlater] at hnot
      simpa using hnot
    have hearlier : ∀ row ∈ before, row.createdAt < first.createdAt := by
      intro row hrow
      have hle := (pairwise_append.mp (hrows ▸ hordered)).2.2 row hrow first (by simp)
      refine lt_of_le_of_ne hle fun hinstant => ?_
      have hsame : undeliverableInstant groups rows first =
          undeliverableInstant groups rows row := by
        simp only [undeliverableInstant, hinstant]
      rw [hfirst, hhead row hrow] at hsame
      cases hsame
    have hfits : FitsPage groups safeLimit rows ↔ first ∈ pageOf safeLimit rows := by
      rw [FitsPage, hlater, hbefore, hrows, mem_pageOf_iff hearlier]
      simp
    rw [hfits]
    obtain ⟨rest, hsplit, _, hleft⟩ := @pageOf_spec safeLimit rows hordered
    have hmem : first ∈ rows := hrows ▸ by simp
    constructor
    · rintro ⟨row, hrow, hdeliverable⟩
      by_contra hmissing
      rw [hsplit, mem_append] at hmem
      have hlt := hleft row hrow first (hmem.resolve_left hmissing)
      have hrow' := hanswered row (hsplit ▸ mem_append_left rest hrow) hdeliverable
      have hafter := (pairwise_append.mp (hrows ▸ hordered)).2.1
      rcases mem_cons.mp hrow' with rfl | htail
      · exact lt_irrefl _ hlt
      · exact absurd ((pairwise_cons.mp hafter).1 row htail) (not_le.mpr hlt)
    · intro htaken
      have hexists : ∃ other ∈ rows, other.createdAt = first.createdAt ∧
          other.deliverable groups = true := by
        by_contra hnone
        have htrue := undeliverableInstant_eq_true.mpr fun other hother hinstant =>
          Bool.eq_false_iff.mpr fun hdeliverable => hnone ⟨other, hother, hinstant, hdeliverable⟩
        cases hfirst.symm.trans htrue
      obtain ⟨other, hother, hinstant, hdeliverable⟩ := hexists
      refine ⟨other, ?_, hdeliverable⟩
      rw [hsplit, mem_append] at hother
      refine hother.resolve_right fun hmissing => ?_
      exact absurd (hleft first htaken other hmissing) (by omega)

/-! ## 5. The page of a fetch -/

instance (rank : QueuedMessage → Nat) : IsTrans QueuedMessage (Earlier rank) :=
  ⟨fun first second third hfirst hsecond => by
    unfold Earlier at *
    omega⟩

instance (rank : QueuedMessage → Nat) : Std.Total (Earlier rank) :=
  ⟨fun first second => by
    unfold Earlier
    omega⟩

theorem ordered_pendingRows (queue : List QueuedMessage) (after : Option Nat)
    (rank : QueuedMessage → Nat) : Ordered (pendingRows queue after rank) := by
  refine (pairwise_insertionSort (Earlier rank) _).imp fun hearlier => ?_
  unfold Earlier at hearlier
  omega

@[simp] theorem mem_pendingRows {rank : QueuedMessage → Nat} :
    row ∈ pendingRows queue after rank ↔ row ∈ queue ∧ beyond after row = true := by
  rw [pendingRows, mem_insertionSort, mem_filter]

/-- The statements of one fetch order the rows of one instant alike. -/
def SameOrder (queue : List QueuedMessage) (after : Option Nat)
    (ranks : Nat → QueuedMessage → Nat) : Prop :=
  ∀ statement, pendingRows queue after (ranks statement) = pendingRows queue after (ranks 0)

theorem readPage_eq {limit : Nat}
    {ranks : Nat → QueuedMessage → Nat} (hsame : SameOrder queue after ranks) :
    readPage queue limit after ranks =
      pageOf (min (max limit 1) 1000) (pendingRows queue after (ranks 0)) := by
  have hquery : (fun statement => pendingRows queue after (ranks statement)) =
      fun _ => pendingRows queue after (ranks 0) := funext hsame
  have hlength : (pendingRows queue after (ranks 0)).length ≤ queue.length := by
    rw [pendingRows, length_insertionSort]
    exact length_filter_le _ _
  rw [readPage, hquery, readChunks_eq _ (by omega), drop_zero]
  rfl

section

variable {queue : List QueuedMessage} {limit : Nat} {after : Option Nat}
  {ranks : Nat → QueuedMessage → Nat}

section

variable (hsame : SameOrder queue after ranks)
include hsame

/-- A page passes over no row: what is not later than a row of the page is in the page. -/
theorem mem_readPage_of_le {seen : QueuedMessage} (hseen : seen ∈ readPage queue limit after ranks)
    (hrow : row ∈ queue) (hbeyond : beyond after row = true)
    (hle : row.createdAt ≤ seen.createdAt) : row ∈ readPage queue limit after ranks := by
  rw [readPage_eq hsame] at hseen ⊢
  obtain ⟨rest, hsplit, _, hleft⟩ := pageOf_spec (ordered_pendingRows queue after (ranks 0))
  have hmem : row ∈ pendingRows queue after (ranks 0) := mem_pendingRows.mpr ⟨hrow, hbeyond⟩
  rw [hsplit, mem_append] at hmem
  refine hmem.resolve_right fun hmissing => ?_
  exact absurd (hleft seen hseen row hmissing) (not_lt.mpr hle)

theorem ordered_readPage : Ordered (readPage queue limit after ranks) := by
  have hordered := ordered_pendingRows queue after (ranks 0)
  obtain ⟨rest, hsplit, _⟩ := @pageOf_spec (min (max limit 1) 1000) _ hordered
  rw [hsplit] at hordered
  rw [readPage_eq hsame]
  exact (pairwise_append.mp hordered).1

theorem readPage_deliverable_iff
    (hsome : ∃ row ∈ queue, row.deliverable groups = true ∧ beyond after row = true) :
    (∃ row ∈ readPage queue limit after ranks, row.deliverable groups = true) ↔
      FitsPage groups (min (max limit 1) 1000) (pendingRows queue after (ranks 0)) := by
  rw [readPage_eq hsame]
  refine pageOf_deliverable_iff (ordered_pendingRows queue after (ranks 0)) ?_
  obtain ⟨row, hrow, hdeliverable, hbeyond⟩ := hsome
  exact ⟨row, mem_pendingRows.mpr ⟨hrow, hbeyond⟩, hdeliverable⟩

end

end

theorem readChunks_subset {query : Nat → List QueuedMessage} :
    ∀ {fuel statement offset : Nat} {fill : Fill},
      row ∈ (readChunks query safeLimit fuel statement offset fill).messages →
        row ∈ fill.messages ∨ ∃ statement, row ∈ query statement
  | 0, statement, offset, fill, hrow => .inl hrow
  | fuel + 1, statement, offset, fill, hrow => by
    have hchunk : ∀ other, other ∈ (fill.rows safeLimit
          (((query statement).drop offset).take pendingFetchChunkRows)).messages →
        other ∈ fill.messages ∨ ∃ statement, other ∈ query statement := by
      intro other hother
      rcases mem_append.mp (rows_subset _ _ _ hother) with hold | hnew
      · exact .inl hold
      · exact .inr ⟨statement, mem_of_mem_drop (mem_of_mem_take hnew)⟩
    rw [readChunks] at hrow
    split at hrow
    · exact .inl hrow
    split at hrow
    · exact hchunk row hrow
    split at hrow
    · exact hchunk row hrow
    rcases readChunks_subset hrow with hold | hnew
    · exact hchunk row hold
    · exact .inr hnew

theorem mem_of_mem_readPage {limit : Nat} {ranks : Nat → QueuedMessage → Nat}
    (hrow : row ∈ readPage queue limit after ranks) : row ∈ queue ∧ beyond after row = true := by
  rcases readChunks_subset hrow with hempty | ⟨statement, hrow⟩
  · exact absurd hempty not_mem_nil
  · exact mem_pendingRows.mp hrow

end MinesApp.PendingQueue
