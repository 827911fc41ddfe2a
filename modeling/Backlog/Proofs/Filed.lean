/-
# What is filed under an id

A `Filed` is a table of entries, and all that anything outside ever sees of it is `rowsOf`: the
rows under one id, in the order in which they were filed.  This module says what each operation
does to that view.

* `rowsOf_file`, `rowsOf_dropAll`, `rowsOf_keep`: filing appends under one id, dropping empties
  the ids it names, keeping filters every id's rows;
* `rowsOf_byKey`: rows filed by a key are found again by filtering on it;
* `rowsOf_foldl_file_batch`: rows of a batch are found under the jobs they arrive with;
* `mem_all`: nothing is filed that is not filed under some id;
* `rowsOf_of_perm`, `Keyed`, `filter_all`: the order of the entries shows neither in the rows under
  an id nor, if every row is filed under its own key, in the rows with one key;
* `dropAll_append`, `dropAll_keep`, `keep_keep`: dropping and sifting can be put together and taken
  apart, in any order, and leave the same entries.

That an id has one entry at most is used in two places: `keep` may drop an entry altogether, and
`all` shows every entry while `rowsOf` shows the first one.
-/
import Backlog.Roster

namespace Backlog

theorem lookup_cons_eq {κ β : Type} [DecidableEq κ] {i j : κ} {b : β} {l : List (κ × β)} :
    ((j, b) :: l).lookup i = if i = j then some b else l.lookup i := by
  by_cases h : i = j
  · simp [h]
  · have hb : (i == j) = false := by simpa using h
    rw [List.lookup_cons, hb, if_neg h]

theorem lookup_eq_some_of_mem {κ β : Type} [DecidableEq κ] {i : κ} {b : β} :
    ∀ {l : List (κ × β)}, (l.map Prod.fst).Nodup → (i, b) ∈ l → l.lookup i = some b
  | [], _, h => by simp at h
  | (j, old) :: rest, hn, h => by
    obtain ⟨hj, hrest⟩ := List.nodup_cons.mp hn
    rw [lookup_cons_eq]
    rcases List.mem_cons.mp h with heq | hmem
    · cases heq
      rw [if_pos rfl]
    · have hij : i ≠ j := by
        rintro rfl
        exact hj (List.mem_map.mpr ⟨(i, b), hmem, rfl⟩)
      rw [if_neg hij]
      exact lookup_eq_some_of_mem hrest hmem

namespace Filed

variable {α : Type}

/-! ## 1. Entries -/

theorem lookup_extend (id i : JobId) (rows : List α) : ∀ l : List (JobId × List α),
    (extend id rows l).lookup i = if i = id then some ((l.lookup id).getD [] ++ rows)
      else l.lookup i
  | [] => by by_cases h : i = id <;> simp [extend, lookup_cons_eq, h]
  | (j, old) :: rest => by
    have ih := lookup_extend id i rows rest
    by_cases hj : j = id
    · by_cases hi : i = id
      · simp [extend, hj, hi]
      · simp [extend, hj, hi, lookup_cons_eq]
    · have hid : ¬id = j := fun h => hj h.symm
      simp only [extend, if_neg hj, lookup_cons_eq, ih, if_neg hid]
      by_cases hi : i = id
      · rw [if_neg (by rw [hi]; exact hid), if_pos hi]
        exact (if_pos hi).symm
      · rw [if_neg hi, if_neg hi]

theorem rowsOf_eq_of_mem {f : Filed α} {i : JobId} {rows : List α} (h : (i, rows) ∈ f.entries) :
    f.rowsOf i = rows := by
  simp [rowsOf, lookup_eq_some_of_mem f.unique h]

theorem rowsOf_eq_nil {f : Filed α} {i : JobId} (h : ∀ rows, (i, rows) ∉ f.entries) :
    f.rowsOf i = [] := by
  have hnone : f.entries.lookup i = none := by
    refine List.lookup_eq_none_iff.mpr fun e he => ?_
    simp only [bne_iff_ne, ne_eq]
    rintro rfl
    exact h e.2 he
  simp [rowsOf, hnone]

theorem mem_all {f : Filed α} {row : α} : row ∈ f.all ↔ ∃ id, row ∈ f.rowsOf id := by
  simp only [all, List.mem_flatMap]
  constructor
  · rintro ⟨⟨i, rows⟩, he, hrow⟩
    exact ⟨i, by rw [rowsOf_eq_of_mem he]; exact hrow⟩
  · rintro ⟨i, hrow⟩
    by_cases h : ∃ rows, (i, rows) ∈ f.entries
    · obtain ⟨rows, he⟩ := h
      rw [rowsOf_eq_of_mem he] at hrow
      exact ⟨(i, rows), he, hrow⟩
    · rw [rowsOf_eq_nil fun rows he => h ⟨rows, he⟩] at hrow
      simp at hrow

/-- The rows under an id do not depend on where its entry stands. -/
theorem rowsOf_of_perm {f g : Filed α} (h : f.entries.Perm g.entries) (i : JobId) :
    f.rowsOf i = g.rowsOf i := by
  by_cases hi : ∃ rows, (i, rows) ∈ f.entries
  · obtain ⟨rows, he⟩ := hi
    rw [rowsOf_eq_of_mem he, rowsOf_eq_of_mem (h.mem_iff.mp he)]
  · rw [rowsOf_eq_nil fun rows he => hi ⟨rows, he⟩,
      rowsOf_eq_nil fun rows he => hi ⟨rows, h.mem_iff.mpr he⟩]

theorem flatMap_eq_getD_lookup {i : JobId} : ∀ {l : List (JobId × List α)},
    (l.map Prod.fst).Nodup →
      (l.flatMap fun e => if e.1 = i then e.2 else []) = (l.lookup i).getD []
  | [], _ => rfl
  | (j, rows) :: rest, hn => by
    obtain ⟨hj, hrest⟩ := List.nodup_cons.mp hn
    have ih := flatMap_eq_getD_lookup (i := i) hrest
    rw [List.flatMap_cons, lookup_cons_eq, ih]
    by_cases hji : j = i
    · subst hji
      have hnone : rest.lookup j = none := by
        refine List.lookup_eq_none_iff.mpr fun e he => ?_
        simp only [bne_iff_ne, ne_eq]
        rintro rfl
        exact hj (List.mem_map.mpr ⟨e, he, rfl⟩)
      simp [hnone]
    · have hij : i ≠ j := fun h => hji h.symm
      simp [hji, hij]

/-- Every row is filed under its own key. -/
def Keyed (f : Filed α) (key : α → JobId) : Prop := ∀ i, ∀ row ∈ f.rowsOf i, key row = i

/-- Then the rows with a key are those that are filed under it. -/
theorem filter_all {f : Filed α} {key : α → JobId} (hkey : f.Keyed key) (i : JobId) :
    f.all.filter (key · == i) = f.rowsOf i := by
  rw [all, List.filter_flatMap, rowsOf, ← flatMap_eq_getD_lookup f.unique, List.flatMap_def,
    List.flatMap_def]
  refine congrArg List.flatten (List.map_congr_left fun e he => ?_)
  have hrows : ∀ row ∈ e.2, key row = e.1 := by
    intro row hrow
    refine hkey e.1 row ?_
    rwa [rowsOf_eq_of_mem he]
  by_cases hi : e.1 = i
  · rw [if_pos hi]
    exact List.filter_eq_self.mpr fun row hrow => beq_iff_eq.mpr ((hrows row hrow).trans hi)
  · rw [if_neg hi]
    refine List.filter_eq_nil_iff.mpr fun row hrow heq => hi ?_
    exact (hrows row hrow).symm.trans (beq_iff_eq.mp heq)

/-! ## 2. The view after each operation -/

@[simp] theorem rowsOf_empty (i : JobId) : ({} : Filed α).rowsOf i = [] := rfl

theorem rowsOf_file (f : Filed α) (id i : JobId) (rows : List α) :
    (f.file id rows).rowsOf i = f.rowsOf i ++ if i = id then rows else [] := by
  unfold file
  split
  · rename_i h
    simp [List.isEmpty_iff.mp h]
  · by_cases hi : i = id
    · simp [rowsOf, lookup_extend, hi]
    · simp [rowsOf, lookup_extend, hi]

theorem rowsOf_dropAll (f : Filed α) (ids : List JobId) (i : JobId) :
    (f.dropAll ids).rowsOf i = if i ∈ ids then [] else f.rowsOf i := by
  have hmem : ∀ rows, (i, rows) ∈ (f.dropAll ids).entries ↔ (i, rows) ∈ f.entries ∧ i ∉ ids := by
    simp [dropAll]
  by_cases hi : i ∈ ids
  · rw [if_pos hi]
    exact rowsOf_eq_nil fun rows he => ((hmem rows).mp he).2 hi
  · rw [if_neg hi]
    by_cases h : ∃ rows, (i, rows) ∈ f.entries
    · obtain ⟨rows, he⟩ := h
      rw [rowsOf_eq_of_mem he, rowsOf_eq_of_mem ((hmem rows).mpr ⟨he, hi⟩)]
    · rw [rowsOf_eq_nil fun rows he => h ⟨rows, he⟩,
        rowsOf_eq_nil fun rows he => h ⟨rows, ((hmem rows).mp he).1⟩]

theorem rowsOf_keep (f : Filed α) (p : α → Bool) (i : JobId) :
    (f.keep p).rowsOf i = (f.rowsOf i).filter p := by
  have hmem : ∀ rows, (i, rows) ∈ (f.keep p).entries ↔
      ∃ old, (i, old) ∈ f.entries ∧ old.filter p = rows ∧ rows ≠ [] := by
    intro rows
    simp only [keep, List.mem_filter, List.mem_map, Prod.mk.injEq, Bool.not_eq_true',
      List.isEmpty_eq_false_iff]
    constructor
    · rintro ⟨⟨⟨j, old⟩, hold, rfl, rfl⟩, hne⟩
      exact ⟨old, hold, rfl, hne⟩
    · rintro ⟨old, hold, rfl, hne⟩
      exact ⟨⟨(i, old), hold, rfl, rfl⟩, hne⟩
  by_cases h : ∃ old, (i, old) ∈ f.entries
  · obtain ⟨old, hold⟩ := h
    rw [rowsOf_eq_of_mem hold]
    by_cases hne : old.filter p = []
    · rw [hne]
      -- the entry is gone, and there was only one
      refine rowsOf_eq_nil fun rows he => ?_
      obtain ⟨old', hold', rfl, hne'⟩ := (hmem rows).mp he
      have hsame : old' = old := (rowsOf_eq_of_mem hold').symm.trans (rowsOf_eq_of_mem hold)
      exact hne' (hsame ▸ hne)
    · exact rowsOf_eq_of_mem ((hmem _).mpr ⟨old, hold, rfl, hne⟩)
  · rw [rowsOf_eq_nil fun rows he => h ⟨rows, he⟩, List.filter_nil]
    refine rowsOf_eq_nil fun rows he => ?_
    obtain ⟨old, hold, -, -⟩ := (hmem rows).mp he
    exact h ⟨old, hold⟩

theorem rowsOf_foldl_file {key : α → JobId} {i : JobId} : ∀ (rows : List α) (f : Filed α),
    (rows.foldl (fun f row => f.file (key row) [row]) f).rowsOf i
      = f.rowsOf i ++ rows.filter (key · == i)
  | [], f => by simp
  | row :: rest, f => by
    rw [List.foldl_cons, rowsOf_foldl_file rest, rowsOf_file, List.append_assoc]
    by_cases h : key row = i
    · simp [h]
    · have h' : ¬i = key row := fun heq => h heq.symm
      simp [h, h']

theorem rowsOf_byKey (key : α → JobId) (rows : List α) (i : JobId) :
    (byKey key rows).rowsOf i = rows.filter (key · == i) :=
  (rowsOf_foldl_file rows {}).trans (by simp)

theorem byKey_keyed (key : α → JobId) (rows : List α) : (byKey key rows).Keyed key := by
  intro i row hrow
  rw [rowsOf_byKey] at hrow
  exact beq_iff_eq.mp (List.mem_filter.mp hrow).2

/-- Rows that are filed under the jobs they arrive with. -/
theorem rowsOf_foldl_file_batch {rows : Submission → List α} {id : JobId} :
    ∀ (batch : List Submission) (f : Filed α),
      (batch.foldl (fun f s => f.file s.id (rows s)) f).rowsOf id
        = f.rowsOf id ++ batch.flatMap fun s => if id = s.id then rows s else []
  | [], f => by simp
  | s :: rest, f => by
    rw [List.foldl_cons, rowsOf_foldl_file_batch rest, rowsOf_file, List.flatMap_cons,
      List.append_assoc]

/-! ## 3. One operation after another -/

theorem eq_of_entries {f g : Filed α} (h : f.entries = g.entries) : f = g := by
  cases f
  cases g
  cases h
  rfl

theorem dropAll_append (f : Filed α) (ids more : List JobId) :
    f.dropAll (ids ++ more) = (f.dropAll ids).dropAll more := by
  refine eq_of_entries ?_
  simp only [dropAll, List.filter_filter]
  refine List.filter_congr fun e _ => ?_
  simp [Bool.and_comm]

/-- Whether entries are dropped before or after their rows are sifted makes no difference. -/
theorem dropAll_keep (f : Filed α) (ids : List JobId) (p : α → Bool) :
    (f.keep p).dropAll ids = (f.dropAll ids).keep p := by
  refine eq_of_entries ?_
  simp only [dropAll, keep, List.filter_map, List.filter_filter]
  refine congrArg _ (List.filter_congr fun e _ => ?_)
  exact Bool.and_comm _ _

/-- An entry that the first sifting leaves empty would be left empty by both at once. -/
theorem keep_keep (f : Filed α) (p q : α → Bool) :
    (f.keep p).keep q = f.keep fun a => p a && q a := by
  refine eq_of_entries ?_
  have hempty : ∀ e : JobId × List α,
      (!(e.2.filter q).isEmpty && !e.2.isEmpty) = !(e.2.filter q).isEmpty := by
    rintro ⟨i, rows⟩
    cases rows <;> simp
  have htwice : ∀ e : JobId × List α, (e.2.filter p).filter q = e.2.filter fun a => p a && q a := by
    intro e
    rw [List.filter_filter]
    exact List.filter_congr fun a _ => Bool.and_comm _ _
  simp only [keep]
  rw [List.filter_map, List.filter_filter]
  simp only [Function.comp_def, hempty, List.filter_map, List.map_map, htwice]

end Filed

end Backlog
