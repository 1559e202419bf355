import Mathlib.Data.List.Sort

/-!
# The order of messages in a conversation

`messageOrder.ts`: by time, then by the time at which the server queued the message, then by the
order of arrival in the session, then by id.  The second and third are compared only when both
messages have them, and so the comparison need not be transitive: a message without a server
time stands by its id among messages that stand by their server times.

A number is an integer, and the time of an invalid date is `none`; a comparison with it is not a
number, which `sort` reads as equal.  `collate` is `localeCompare`.
-/

namespace MinesApp.MessageOrder

open List

/-! ## 1. The comparison -/

structure Message (Id : Type) where
  time : Option Int
  serverTimestamp : Option Int
  ingestSequence : Option Int
  id : Id
  deriving DecidableEq

/-- The comparison of an optional key, which decides nothing unless both messages have it. -/
def whenBoth : Option Int → Option Int → Ordering
  | some first, some second => compare first second
  | _, _ => .eq

variable {Id : Type} (collate : Id → Id → Ordering)

def compareMessageOrder (a b : Message Id) : Ordering :=
  match a.time, b.time with
  | some timeA, some timeB =>
    (compare timeA timeB).then <| (whenBoth a.serverTimestamp b.serverTimestamp).then <|
      (whenBoth a.ingestSequence b.ingestSequence).then (collate a.id b.id)
  | _, _ => .eq

/-- `sort` with the comparison.  It is stable, and on a consistent comparison every stable sort
    gives the same list. -/
def sortMessages (messages : List (Message Id)) : List (Message Id) :=
  messages.insertionSort fun a b => (compareMessageOrder collate a b).isLE = true

def insertMessageOrdered (messages : List (Message Id)) (incoming : Message Id) :
    List (Message Id) :=
  sortMessages collate (messages ++ [incoming])

def mergeMessagesInInputOrder (existing incoming : List (Message Id)) : List (Message Id) :=
  incoming.foldl (insertMessageOrdered collate) existing

/-! ## 2. Cycles

Three messages can follow each other in a circle in one way only: two of them have a key, the
third has not, and by what is compared next the third stands between the two in the other
order. -/

def byId (a b : Message Id) : Ordering := collate a.id b.id

def byPlace (a b : Message Id) : Ordering :=
  (whenBoth a.ingestSequence b.ingestSequence).then (byId collate a b)

/-- The key puts `a` before `b`; `c` has none, and the rest puts it after `b` and before `a`. -/
def Wedged (key : Message Id → Option Int) (rest : Message Id → Message Id → Ordering)
    (a b c : Message Id) : Prop :=
  whenBoth (key a) (key b) = .lt ∧ key c = none ∧ rest b c = .lt ∧ rest c a = .lt
  deriving Decidable

/-- Any two different messages have dates and differ in a key that both have, or their ids
    collate apart; and no message stands between two others of its time against their server
    times, or, where no server time decides, against their places in the session. -/
structure Orderly (messages : List (Message Id)) : Prop where
  apart : ∀ a ∈ messages, ∀ b ∈ messages, a ≠ b → a.time.isSome = true ∧ b.time.isSome = true ∧
    ¬ (a.time = b.time ∧ whenBoth a.serverTimestamp b.serverTimestamp = .eq ∧
      byPlace collate a b = .eq)
  serverTimes : ∀ a ∈ messages, ∀ b ∈ messages, ∀ c ∈ messages, a.time = b.time →
    b.time = c.time → ¬ Wedged (·.serverTimestamp) (byPlace collate) a b c
  places : ∀ a ∈ messages, ∀ b ∈ messages, ∀ c ∈ messages, a.time = b.time →
    b.time = c.time → whenBoth a.serverTimestamp b.serverTimestamp = .eq →
    whenBoth b.serverTimestamp c.serverTimestamp = .eq →
    whenBoth c.serverTimestamp a.serverTimestamp = .eq →
    ¬ Wedged (·.ingestSequence) (byId collate) a b c

theorem whenBoth_eq_lt {first second : Option Int} :
    whenBoth first second = .lt ↔ ∃ x y, first = some x ∧ second = some y ∧ x < y := by
  cases first <;> cases second <;> simp [whenBoth, compare_lt_iff_lt]

theorem whenBoth_eq_eq {first second : Option Int} :
    whenBoth first second = .eq ↔ ∀ x y, first = some x → second = some y → x = y := by
  cases first <;> cases second <;> simp [whenBoth]

theorem whenBoth_swap (first second : Option Int) :
    (whenBoth second first).swap = whenBoth first second := by
  cases first <;> cases second <;> simp only [whenBoth, Ordering.swap_eq]
  exact Std.OrientedOrd.eq_swap.symm

theorem Wedged.ne {key : Message Id → Option Int} {rest : Message Id → Message Id → Ordering}
    {a b c : Message Id} (h : Wedged key rest a b c) : a ≠ b := by
  rintro rfl
  obtain ⟨x, y, hx, hy, hlt⟩ := whenBoth_eq_lt.mp h.1
  exact absurd hlt (Option.some.inj (hx.symm.trans hy) ▸ lt_irrefl x)

theorem cycle_cases {key : Message Id → Option Int} {rest : Message Id → Message Id → Ordering}
    {a b c : Message Id} (hab : (whenBoth (key a) (key b)).then (rest a b) = .lt)
    (hbc : (whenBoth (key b) (key c)).then (rest b c) = .lt)
    (hca : (whenBoth (key c) (key a)).then (rest c a) = .lt) :
    (Wedged key rest a b c ∨ Wedged key rest b c a ∨ Wedged key rest c a b) ∨
      (whenBoth (key a) (key b) = .eq ∧ whenBoth (key b) (key c) = .eq ∧
        whenBoth (key c) (key a) = .eq) ∧ rest a b = .lt ∧ rest b c = .lt ∧ rest c a = .lt := by
  simp only [Ordering.then_eq_lt, Wedged, whenBoth_eq_lt, whenBoth_eq_eq] at *
  generalize key a = x, key b = y, key c = z at *
  cases x <;> cases y <;> cases z <;> simp_all; grind

/-! ## 3. One displayed order -/

section

variable {collate} {messages part : List (Message Id)} {a b c : Message Id}

theorem compare_of_time {time : Int} (ha : a.time = some time) (hb : b.time = some time) :
    compareMessageOrder collate a b =
      (whenBoth a.serverTimestamp b.serverTimestamp).then (byPlace collate a b) := by
  simp [compareMessageOrder, ha, hb, byPlace, byId]

theorem Orderly.eq_of_compare (h : Orderly collate messages) (ha : a ∈ messages)
    (hb : b ∈ messages) (heq : compareMessageOrder collate a b = .eq) : a = b := by
  by_contra hne
  obtain ⟨hdateA, hdateB, hdiffer⟩ := h.apart a ha b hb hne
  obtain ⟨timeA, htimeA⟩ := Option.isSome_iff_exists.mp hdateA
  obtain ⟨timeB, htimeB⟩ := Option.isSome_iff_exists.mp hdateB
  simp only [compareMessageOrder, htimeA, htimeB, Ordering.then_eq_eq,
    Std.LawfulEqOrd.compare_eq_iff_eq] at heq
  obtain ⟨rfl, hserver, hplace⟩ := heq
  exact hdiffer ⟨htimeA.trans htimeB.symm, hserver, by simpa [byPlace, byId] using hplace⟩

variable [Std.TransCmp collate]

theorem compare_swap (a b : Message Id) :
    compareMessageOrder collate a b = (compareMessageOrder collate b a).swap := by
  unfold compareMessageOrder
  cases a.time with
  | none => cases b.time <;> rfl
  | some timeA =>
    cases b.time with
    | none => rfl
    | some timeB =>
      simp only [Ordering.swap_then, whenBoth_swap]
      rw [← @Std.OrientedCmp.eq_swap _ collate _ a.id, ← Std.OrientedOrd.eq_swap]

theorem Orderly.no_cycle (h : Orderly collate messages) (ha : a ∈ messages) (hb : b ∈ messages)
    (hc : c ∈ messages) {time : Int} (hta : a.time = some time) (htb : b.time = some time)
    (htc : c.time = some time) (hab : compareMessageOrder collate a b = .lt)
    (hbc : compareMessageOrder collate b c = .lt) : compareMessageOrder collate c a ≠ .lt := by
  intro hca
  rw [compare_of_time hta htb] at hab
  rw [compare_of_time htb htc] at hbc
  rw [compare_of_time htc hta] at hca
  have hsame : a.time = b.time ∧ b.time = c.time ∧ c.time = a.time := by simp [hta, htb, htc]
  obtain ⟨htab, htbc, htca⟩ := hsame
  rcases cycle_cases hab hbc hca with (hw | hw | hw) | ⟨⟨hsab, hsbc, hsca⟩, hab, hbc, hca⟩
  · exact h.serverTimes a ha b hb c hc htab htbc hw
  · exact h.serverTimes b hb c hc a ha htbc htca hw
  · exact h.serverTimes c hc a ha b hb htca htab hw
  · rcases cycle_cases hab hbc hca with (hw | hw | hw) | ⟨-, hab, hbc, hca⟩
    · exact h.places a ha b hb c hc htab htbc hsab hsbc hsca hw
    · exact h.places b hb c hc a ha htbc htca hsbc hsca hsab hw
    · exact h.places c hc a ha b hb htca htab hsca hsab hsbc hw
    · -- by the ids alone there is no circle
      have hac : collate a.id c.id = .lt := Std.TransCmp.lt_trans hab hbc
      have hca : collate c.id a.id = .lt := hca
      rw [@Std.OrientedCmp.eq_swap _ collate, hca] at hac
      cases hac

theorem Orderly.lt_trans (h : Orderly collate messages) (ha : a ∈ messages) (hb : b ∈ messages)
    (hc : c ∈ messages) (hab : compareMessageOrder collate a b = .lt)
    (hbc : compareMessageOrder collate b c = .lt) : compareMessageOrder collate a c = .lt := by
  cases hta : a.time with
  | none => simp [compareMessageOrder, hta] at hab
  | some timeA =>
    cases htb : b.time with
    | none => simp [compareMessageOrder, htb] at hbc
    | some timeB =>
      cases htc : c.time with
      | none => simp [compareMessageOrder, htc] at hbc
      | some timeC =>
        have htimes : timeA < timeC ∨ timeA = timeB ∧ timeB = timeC := by
          simp only [compareMessageOrder, hta, htb, htc, Ordering.then_eq_lt, compare_lt_iff_lt,
            compare_eq_iff_eq] at hab hbc
          omega
        rcases htimes with hlt | ⟨rfl, rfl⟩
        · simp [compareMessageOrder, hta, htc, compare_lt_iff_lt.mpr hlt]
        · have hca := h.no_cycle ha hb hc hta htb htc hab hbc
          rw [compare_swap] at hca ⊢
          cases hcompare : compareMessageOrder collate c a with
          | gt => rfl
          | lt => exact absurd hcompare (by simpa [compare_swap c a] using hca)
          | eq =>
            cases h.eq_of_compare hc ha hcompare
            rw [compare_swap, hbc] at hab
            cases hab

/-- Among orderly messages the comparison is a linear order. -/
theorem Orderly.sorted (h : Orderly collate messages) (hpart : part ⊆ messages) :
    (sortMessages collate part).Pairwise
      fun a b => (compareMessageOrder collate a b).isLE = true := by
  let le : {message // message ∈ messages} → {message // message ∈ messages} → Prop :=
    fun a b => (compareMessageOrder collate a.1 b.1).isLE = true
  have htotal : Std.Total le := ⟨fun a b => by
    simp only [le, compare_swap b.1 a.1]
    cases compareMessageOrder collate a.1 b.1 <;> simp⟩
  have htrans : IsTrans _ le := ⟨fun a b c hab hbc => by
    simp only [le, Ordering.isLE_iff_eq_lt_or_eq_eq] at hab hbc ⊢
    rcases hab with hab | hab
    · rcases hbc with hbc | hbc
      · exact .inl (h.lt_trans a.2 b.2 c.2 hab hbc)
      · exact .inl (h.eq_of_compare b.2 c.2 hbc ▸ hab)
    · rw [h.eq_of_compare a.2 b.2 hab]
      exact hbc⟩
  have hmap : (part.attachWith (· ∈ messages) hpart).map Subtype.val = part :=
    attachWith_map_subtype_val hpart
  rw [← hmap, sortMessages, ← map_insertionSort le _ Subtype.val _ fun _ _ _ _ => Iff.rfl,
    pairwise_map]
  exact pairwise_insertionSort le _

/-- Two lists of the same messages are sorted alike. -/
theorem Orderly.sort_perm (h : Orderly collate messages) {other : List (Message Id)}
    (hpart : part ⊆ messages) (hperm : part.Perm other) :
    sortMessages collate part = sortMessages collate other := by
  refine List.Perm.eq_of_pairwise (fun a b ha hb hab hba => ?_) (h.sorted hpart)
    (h.sorted fun a ha => hpart (hperm.symm.subset ha)) ?_
  · have ha := hpart ((mem_insertionSort _).mp ha)
    have hb := hpart (hperm.symm.subset ((mem_insertionSort _).mp hb))
    apply h.eq_of_compare ha hb
    rw [compare_swap b a] at hba
    cases hcompare : compareMessageOrder collate a b <;> simp_all
  · exact ((perm_insertionSort _ part).trans hperm).trans (perm_insertionSort _ other).symm

theorem Orderly.merge_sorted (h : Orderly collate messages) (arrived incoming : List (Message Id))
    (hpart : arrived ++ incoming ⊆ messages) :
    mergeMessagesInInputOrder collate (sortMessages collate arrived) incoming =
      sortMessages collate (arrived ++ incoming) := by
  induction incoming generalizing arrived with
  | nil => simp [mergeMessagesInInputOrder]
  | cons message rest ih =>
    have hone : (arrived ++ [message]) ++ rest = arrived ++ message :: rest := by simp
    have hperm : (arrived ++ [message]).Perm (sortMessages collate arrived ++ [message]) :=
      (perm_insertionSort _ arrived).symm.append_right _
    have hinsert : insertMessageOrdered collate (sortMessages collate arrived) message =
        sortMessages collate (arrived ++ [message]) :=
      (h.sort_perm (fun a ha => hpart (hone ▸ mem_append_left rest ha)) hperm).symm
    have hrest := ih (arrived ++ [message]) (hone ▸ hpart)
    rw [mergeMessagesInInputOrder, foldl_cons, hinsert, ← hone, ← hrest]
    rfl

theorem orderly_of_compare (htrans : ∀ a ∈ messages, ∀ b ∈ messages, ∀ c ∈ messages,
      compareMessageOrder collate a b = .lt → compareMessageOrder collate b c = .lt →
        compareMessageOrder collate a c = .lt)
    (hapart : ∀ a ∈ messages, ∀ b ∈ messages, compareMessageOrder collate a b = .eq → a = b) :
    Orderly collate messages := by
  have hdated : ∀ a ∈ messages, ∀ b ∈ messages, a ≠ b →
      a.time.isSome = true ∧ b.time.isSome = true := by
    intro a ha b hb hne
    have hcompare := mt (hapart a ha b hb) hne
    unfold compareMessageOrder at hcompare
    cases hta : a.time <;> cases htb : b.time <;> simp_all
  -- a circle of three messages of one time
  have hcycle : ∀ a ∈ messages, ∀ b ∈ messages, ∀ c ∈ messages, a ≠ b → a.time = b.time →
      b.time = c.time →
      (whenBoth a.serverTimestamp b.serverTimestamp).then (byPlace collate a b) = .lt →
      (whenBoth b.serverTimestamp c.serverTimestamp).then (byPlace collate b c) = .lt →
      (whenBoth c.serverTimestamp a.serverTimestamp).then (byPlace collate c a) ≠ .lt := by
    intro a ha b hb c hc hne htab htbc hab hbc hca
    obtain ⟨time, htime⟩ := Option.isSome_iff_exists.mp (hdated a ha b hb hne).1
    have htb := htab ▸ htime
    have htc := htbc ▸ htb
    rw [← compare_of_time htime htb] at hab
    rw [← compare_of_time htb htc] at hbc
    rw [← compare_of_time htc htime, compare_swap, htrans a ha b hb c hc hab hbc] at hca
    cases hca
  refine ⟨fun a ha b hb hne => ?_, ?_, ?_⟩
  · obtain ⟨hdateA, hdateB⟩ := hdated a ha b hb hne
    refine ⟨hdateA, hdateB, fun ⟨hsame, hserver, hplace⟩ => hne (hapart a ha b hb ?_)⟩
    obtain ⟨time, htime⟩ := Option.isSome_iff_exists.mp hdateA
    rw [compare_of_time htime (hsame ▸ htime), hserver, hplace]
    rfl
  · intro a ha b hb c hc htab htbc hw
    have hne := hw.ne
    obtain ⟨hkey, hnone, hbc, hca⟩ := hw
    apply hcycle a ha b hb c hc hne htab htbc
    · simp [hkey]
    · simp [hnone, whenBoth, hbc]
    · simp [hnone, whenBoth, hca]
  · intro a ha b hb c hc htab htbc hsab hsbc hsca hw
    have hne := hw.ne
    obtain ⟨hkey, hnone, hbc, hca⟩ := hw
    apply hcycle a ha b hb c hc hne htab htbc
    · simp [hsab, byPlace, hkey]
    · rw [hsbc]
      simp [byPlace, hnone, whenBoth, hbc]
    · rw [hsca]
      simp [byPlace, hnone, whenBoth, hca]

end

/-- **The comparison orders the messages.**  It is antisymmetric and transitive on the messages
    of a list and tells any two apart, and the list shown does not depend on the order in which
    they were inserted, exactly if the messages are orderly. -/
theorem message_order_total [Std.TransCmp collate] (messages : List (Message Id)) :
    Orderly collate messages ↔
      (∀ a ∈ messages, ∀ b ∈ messages,
        compareMessageOrder collate a b = (compareMessageOrder collate b a).swap) ∧
      (∀ a ∈ messages, ∀ b ∈ messages, ∀ c ∈ messages,
        compareMessageOrder collate a b = .lt → compareMessageOrder collate b c = .lt →
          compareMessageOrder collate a c = .lt) ∧
      (∀ a ∈ messages, ∀ b ∈ messages, compareMessageOrder collate a b = .eq → a = b) ∧
      ∀ arrived, arrived.Perm messages →
        sortMessages collate arrived = sortMessages collate messages ∧
          mergeMessagesInInputOrder collate [] arrived = sortMessages collate messages := by
  constructor
  · intro h
    refine ⟨fun a _ b _ => compare_swap a b, fun a ha b hb c hc => h.lt_trans ha hb hc,
      fun a ha b hb => h.eq_of_compare ha hb, fun arrived hperm => ?_⟩
    have hsame := h.sort_perm hperm.subset hperm
    exact ⟨hsame, (h.merge_sorted [] arrived hperm.subset).trans hsame⟩
  · rintro ⟨-, htrans, hapart, -⟩
    exact orderly_of_compare htrans hapart

/-- Two messages of one time, one of them without a server time. -/
theorem message_order_total_two_times :
    sortMessages compare [⟨some 1, none, none, 0⟩, ⟨some 1, some 5, none, 1⟩] =
      sortMessages compare [⟨some 1, some 5, none, 1⟩, ⟨some 1, none, none, (0 : Nat)⟩] :=
  (((message_order_total compare [⟨some 1, some 5, none, 1⟩, ⟨some 1, none, none, (0 : Nat)⟩]).mp
    ⟨by decide, by decide, by decide⟩).2.2.2 _ (.swap _ _ [])).1

/-- Three messages of one time, the second without a server time.  Each comes before the next,
    and the third before the first; two orders of insertion give two lists. -/
theorem message_order_cycle :
    let first : Message Nat := ⟨some 0, some 2, none, 0⟩
    let second : Message Nat := ⟨some 0, none, none, 1⟩
    let third : Message Nat := ⟨some 0, some 1, none, 2⟩
    compareMessageOrder compare first second = .lt ∧
    compareMessageOrder compare second third = .lt ∧
    compareMessageOrder compare third first = .lt ∧
    mergeMessagesInInputOrder compare [] [first, second, third] = [first, second, third] ∧
    mergeMessagesInInputOrder compare [] [second, third, first] = [second, third, first] := by
  decide

end MinesApp.MessageOrder
