/-
# Tables in memory and a database are interchangeable

A store in memory changes plain lists.  A database runs statements on keyed rows, one after the
other, and sorts the rows when they are read.  Whoever calls them cannot tell them apart: a batch is
turned down for the same job, whether its ids are looked through beforehand or met midway; deleting
one id after the other comes to deleting all of them at once; and keys grow as rows are inserted, so
sorting by them brings the order of insertion back.

* `Lists`: a relation whose keys grow with each row, and the values in it, oldest first;
* `Database.Holds`: a database that holds certain tables; `Database.Leaves`: a transaction that goes
  through and leaves certain tables;
* `Holds.call`: the step lemma, one case a call, which makes `Holds` a simulation;
* `Database.Session`: calls of a database that may put its rows under other keys in between;
* `backends_interchangeable`: **that both kinds of stores answer alike, whatever the keys**, and
  that what is loaded is what was written down.
-/
import Backlog.Store.Backend
import Backlog.Proofs.Matched
import Backlog.Proofs.Store.Calls
import Mathlib.Order.Monotone.Basic
import Mathlib.Order.Nat

namespace Backlog

/-! ## 1. Relations whose keys grow -/

section

variable {α : Type}

/-- The values of rows that are listed newest first, oldest first. -/
def contents (rows : List (Keyed α)) : List α := (rows.map Keyed.value).reverse

/-- The rows are listed newest first, under keys that have grown up to `next`, and hold these
values. -/
structure Lists (rows : List (Keyed α)) (next : Nat) (values : List α) : Prop where
  contents_eq : contents rows = values
  newest : rows.Pairwise fun a b => b.key < a.key
  below : ∀ r ∈ rows, r.key < next

/-- Rows in the order of distinct keys can be arranged in one way only. -/
theorem eq_of_sorted_keys {l l' : List (Keyed α)} (hp : l.Perm l')
    (h : l.Pairwise fun a b => a.key ≤ b.key) (h' : l'.Pairwise fun a b => a.key < b.key) :
    l = l' := by
  have hu : (l'.map Keyed.key).Nodup := List.pairwise_map.mpr (h'.imp Nat.ne_of_lt)
  refine hp.eq_of_pairwise (fun a b ha hb hab hba => ?_) h (h'.imp Nat.le_of_lt)
  exact List.inj_on_of_nodup_map hu (hp.mem_iff.mp ha) hb (Nat.le_antisymm hab hba)

namespace Lists

variable {rows : List (Keyed α)} {next : Nat} {values : List α}

theorem empty (next : Nat) : Lists ([] : List (Keyed α)) next [] := ⟨rfl, .nil, by simp⟩

theorem insert (h : Lists rows next values) (a : α) :
    Lists (⟨next, a⟩ :: rows) (next + 1) (values ++ [a]) where
  contents_eq := by simpa [contents] using h.contents_eq
  newest := List.pairwise_cons.mpr ⟨h.below, h.newest⟩
  below r hr := by
    rcases List.mem_cons.mp hr with rfl | hr
    · exact Nat.lt_succ_self _
    · exact Nat.lt_succ_of_lt (h.below r hr)

theorem filter (h : Lists rows next values) (p : α → Bool) :
    Lists (rows.filter fun r => p r.value) next (values.filter p) where
  contents_eq := by
    rw [← h.contents_eq, contents, contents, List.filter_reverse, List.filter_map]
    rfl
  newest := h.newest.filter _
  below r hr := h.below r (List.mem_of_mem_filter hr)

theorem map (h : Lists rows next values) (f : α → α) :
    Lists (rows.map fun r => { r with value := f r.value }) next (values.map f) where
  contents_eq := by
    rw [← h.contents_eq, contents, contents, List.map_reverse, List.map_map, List.map_map]
    rfl
  newest := List.pairwise_map.mpr h.newest
  below _ hr := by
    obtain ⟨r, hmem, rfl⟩ := List.mem_map.mp hr
    exact h.below r hmem

/-- Other keys will do as well, if they grow in the same way. -/
theorem renumber (h : Lists rows next values) {f : Nat → Nat} (hf : StrictMono f) :
    Lists (rows.map fun r => { r with key := f r.key }) (f next) values where
  contents_eq := by
    rw [← h.contents_eq, contents, contents, List.map_map]
    rfl
  newest := List.pairwise_map.mpr (h.newest.imp fun hlt => hf hlt)
  below _ hr := by
    obtain ⟨r, hmem, rfl⟩ := List.mem_map.mp hr
    exact hf (h.below r hmem)

theorem reverse_sorted (h : Lists rows next values) :
    rows.reverse.Pairwise fun a b => a.key < b.key := List.pairwise_reverse.mpr h.newest

theorem byKey_eq (h : Lists rows next values) : Database.byKey rows = values := by
  have htrans : ∀ a b c : Keyed α, decide (a.key ≤ b.key) = true → decide (b.key ≤ c.key) = true →
      decide (a.key ≤ c.key) = true := fun a b c => by
    simpa using Nat.le_trans
  have htotal : ∀ a b : Keyed α, (decide (a.key ≤ b.key) || decide (b.key ≤ a.key)) = true :=
    fun a b => by simpa using Nat.le_total a.key b.key
  have hsorted := List.pairwise_mergeSort htrans htotal rows
  simp only [decide_eq_true_eq] at hsorted
  have hrows : (rows.mergeSort fun a b : Keyed α => decide (a.key ≤ b.key)) = rows.reverse :=
    eq_of_sorted_keys ((List.mergeSort_perm _ _).trans rows.reverse_perm.symm) hsorted
      h.reverse_sorted
  rw [Database.byKey, hrows, List.map_reverse, ← h.contents_eq, contents]

end Lists

end

/-! ## 2. Databases -/

namespace Database

theorem le_foldl_max : ∀ (keys : List Nat) (start : Nat),
    start ≤ keys.foldl max start ∧ ∀ k ∈ keys, k ≤ keys.foldl max start
  | [], start => ⟨Nat.le_refl _, by simp⟩
  | k :: rest, start => by
    obtain ⟨hstart, hrest⟩ := le_foldl_max rest (max start k)
    refine ⟨Nat.le_trans (Nat.le_max_left _ _) hstart, fun i hi => ?_⟩
    rcases List.mem_cons.mp hi with rfl | hi
    · exact Nat.le_trans (Nat.le_max_right _ _) hstart
    · exact hrest i hi

theorem lt_nextJob (db : Database) : ∀ r ∈ db.jobs, r.key < db.nextJob := fun r hr =>
  Nat.lt_succ_of_le ((le_foldl_max _ 0).2 r.key (List.mem_map.mpr ⟨r, hr, rfl⟩))

theorem precedes_iff {a b : Keyed Job} : precedes a b = true ↔
    a.value.created.toInt < b.value.created.toInt ∨
      a.value.created.toInt = b.value.created.toInt ∧ a.key ≤ b.key := by
  simp only [precedes, decide_eq_true_eq, Int64.lt_iff_toInt_lt, Int64.toInt_inj]

theorem precedes_trans (a b c : Keyed Job) (h : precedes a b = true) (h' : precedes b c = true) :
    precedes a c = true := by
  simp only [precedes_iff] at *
  omega

theorem precedes_total (a b : Keyed Job) : (precedes a b || precedes b a) = true := by
  simp only [Bool.or_eq_true, precedes_iff]
  omega

/-- Sorting by age and then by key is sorting by age what is in the order of the keys. -/
theorem sorted_jobs {rows : List (Keyed Job)} {next : Nat} {jobs : List Job}
    (h : Lists rows next jobs) : (rows.mergeSort precedes).map Keyed.value = oldestFirst jobs := by
  have hsorted := List.pairwise_mergeSort precedes_trans precedes_total rows
  have hperm : (rows.mergeSort precedes).Perm rows.reverse :=
    (List.mergeSort_perm _ _).trans rows.reverse_perm.symm
  have hages : ((rows.mergeSort precedes).map Keyed.value).Pairwise
      fun a b => a.created.toInt ≤ b.created.toInt :=
    List.pairwise_map.mpr (hsorted.imp fun hab => by
      have := precedes_iff.mp hab
      omega)
  -- among jobs of one age, both are in the order of the keys
  have hsame : SameOrder ((rows.mergeSort precedes).map Keyed.value) jobs := by
    intro t
    have hfilter : (rows.mergeSort precedes).filter (·.value.created == t)
        = rows.reverse.filter (·.value.created == t) := by
      refine eq_of_sorted_keys (hperm.filter _) ?_ (h.reverse_sorted.filter _)
      refine (hsorted.filter _).imp_of_mem fun ha hb hab => ?_
      have hat := (List.mem_filter.mp ha).2
      have hbt := (List.mem_filter.mp hb).2
      rw [beq_iff_eq] at hat hbt
      rcases precedes_iff.mp hab with hlt | ⟨-, hle⟩
      · rw [hat, hbt] at hlt
        omega
      · exact hle
    rw [← h.contents_eq, contents, ← List.map_reverse, List.filter_map, List.filter_map]
    exact congrArg (List.map Keyed.value) hfilter
  exact SameOrder.eq_of_sorted (hsame.trans (oldestFirst_sameOrder jobs).symm) hages
    (oldestFirst_pairwise jobs)

/-- A database in which these tables are kept. -/
structure Holds (db : Database) (t : Tables) : Prop where
  jobs : Lists db.jobs db.nextJob t.jobs
  guards : Lists db.guards db.nextGuard t.guards
  edges : Lists db.edges db.nextEdge t.edges
  unique : (t.jobs.map Job.id).Nodup

namespace Holds

variable {db : Database} {t : Tables}

theorem empty : Holds {} {} :=
  ⟨Lists.empty _, Lists.empty _, Lists.empty _, List.nodup_nil⟩

theorem load_eq (h : db.Holds t) : Storage.load db = Storage.load t := by
  show Except.ok db.snapshot = .ok t.snapshot
  rw [snapshot, sorted_jobs h.jobs, h.guards.byKey_eq, h.edges.byKey_eq, Tables.snapshot]

theorem any_iff (h : db.Holds t) {id : JobId} :
    db.jobs.any (·.value.id == id) = true ↔ Held t.jobs id := by
  rw [← h.jobs.contents_eq, Held, contents, List.map_reverse, List.mem_reverse, List.map_map,
    List.any_eq_true, List.mem_map]
  simp only [beq_iff_eq, Function.comp_apply]

end Holds

/-! ## 3. Transactions -/

open Statement

/-- The statements go through, and these tables are left. -/
def Leaves (db : Database) (statements : List Statement) (t : Tables) : Prop :=
  ∃ db', transaction statements db = .ok db' ∧ db'.Holds t

namespace Leaves

variable {db db' : Database} {t t' : Tables} {first second : List Statement}

theorem nil (h : db.Holds t) : db.Leaves [] t := ⟨db, rfl, h⟩

theorem one {statement : Statement} (hrun : statement.run db = .ok db') (h : db'.Holds t) :
    db.Leaves [statement] t := by
  refine ⟨db', ?_, h⟩
  rw [transaction, List.foldlM_cons, hrun]
  rfl

theorem append (h : db.Leaves first t) (h' : ∀ {db'}, Holds db' t → db'.Leaves second t') :
    db.Leaves (first ++ second) t' := by
  obtain ⟨db₁, hrun, hdb₁⟩ := h
  obtain ⟨db₂, hrun', hdb₂⟩ := h' hdb₁
  refine ⟨db₂, ?_, hdb₂⟩
  rw [transaction, List.foldlM_append]
  show transaction first db >>= transaction second = _
  rw [hrun]
  exact hrun'

/-- What the statements for one thing do, those for one thing after the other do together. -/
theorem flatMap {α : Type} {statements : α → List Statement} (push : Tables → List α → Tables)
    (hnil : ∀ t, push t [] = t) (hcons : ∀ t a l, push (push t [a]) l = push t (a :: l))
    (hone : ∀ {db t}, Holds db t → ∀ a, db.Leaves (statements a) (push t [a])) :
    ∀ (l : List α) {db : Database} {t : Tables}, db.Holds t →
      db.Leaves (l.flatMap statements) (push t l)
  | [], _, t, h => nil ((hnil t).symm ▸ h)
  | a :: rest, _, t, h => by
    rw [List.flatMap_cons, ← hcons t a rest]
    exact (hone h a).append fun h' => flatMap push hnil hcons hone rest h'

theorem map {α : Type} {statement : α → Statement} (push : Tables → List α → Tables)
    (hnil : ∀ t, push t [] = t) (hcons : ∀ t a l, push (push t [a]) l = push t (a :: l))
    (hone : ∀ {db t}, Holds db t → ∀ a, db.Leaves [statement a] (push t [a]))
    (l : List α) (h : db.Holds t) : db.Leaves (l.map statement) (push t l) :=
  List.map_eq_flatMap ▸ flatMap push hnil hcons hone l h

theorem alike (h : db.Leaves first t) : Alike Holds (transaction first db) (.ok t) := by
  obtain ⟨db', hrun, hdb'⟩ := h
  rw [hrun]
  exact .ok hdb'

end Leaves

namespace Holds

variable {db : Database} {t : Tables}

/-- Jobs may be changed or dropped, as long as the rows keep their keys. -/
theorem of_jobs (h : db.Holds t) {rows : List (Keyed Job)} {next : Nat} {jobs : List Job}
    (hrows : Lists rows next jobs) (hu : (jobs.map Job.id).Nodup) :
    Holds { db with jobs := rows } { t with jobs } where
  jobs := { hrows with below := lt_nextJob { db with jobs := rows } }
  guards := h.guards
  edges := h.edges
  unique := hu

theorem leaves_updateJob (h : db.Holds t) {id : JobId} {f : Job → Job}
    (hf : ∀ j, j.id = id → (f j).id = j.id) :
    db.Leaves [updateJob id f] { t with jobs := modifyFirst (·.id == id) f t.jobs } := by
  have hrows : (db.jobs.map fun r => if r.value.id = id then { r with value := f r.value } else r)
      = db.jobs.map fun r => { r with value := if r.value.id = id then f r.value else r.value } :=
    List.map_congr_left fun r _ => by split <;> rfl
  have hids : (t.jobs.map fun j => if j.id = id then f j else j).map Job.id = t.jobs.map Job.id :=
    map_id_of_keeps (fun j => by split <;> simp [*]) t.jobs
  rw [modifyFirst_id_eq_map h.unique]
  refine .one rfl ?_
  rw [hrows]
  exact h.of_jobs (h.jobs.map fun j => if j.id = id then f j else j) (hids ▸ h.unique)

theorem leaves_clearRunning (h : db.Holds t) :
    db.Leaves [updateEveryJob fun j => { j with running := false }] t.clearRunning := by
  let rest : Job → Job := fun j => { j with running := false }
  have hids : (t.jobs.map rest).map Job.id = t.jobs.map Job.id :=
    map_id_of_keeps (f := rest) (fun _ => rfl) t.jobs
  exact .one rfl (h.of_jobs (h.jobs.map rest) (hids ▸ h.unique))

/-- Three statements delete one job from the tables. -/
theorem leaves_delete (h : db.Holds t) (id : JobId) :
    db.Leaves (deleteStatements id) (t.delete [id]) := by
  have hcontains : ∀ i : JobId, (!([id] : List JobId).contains i) = (i != id) := fun i => by
    by_cases hi : i = id <;> simp [hi, bne]
  refine ⟨_, rfl, ?_⟩
  simp only [Tables.delete, hcontains]
  exact
    { jobs := { h.jobs.filter (·.id != id) with below := lt_nextJob _ }
      guards := h.guards.filter (·.job != id)
      edges := h.edges.filter fun e => e.job != id && e.waitsOn != id
      unique := h.unique.sublist (List.filter_sublist.map _) }

theorem leaves_insertGuard (h : db.Holds t) (g : Guard) :
    db.Leaves [insertGuard g] { t with guards := t.guards ++ [g] } :=
  ⟨_, rfl, { h with guards := h.guards.insert g }⟩

theorem leaves_insertEdge (h : db.Holds t) (e : Edge) :
    db.Leaves [insertEdge e] { t with edges := t.edges ++ [e] } :=
  ⟨_, rfl, { h with edges := h.edges.insert e }⟩

/-- A job whose id is not taken is inserted with its rows. -/
theorem leaves_insert (h : db.Holds t) {s : Submission} (hnew : ¬Held t.jobs s.id) :
    db.Leaves (insertStatements s) (t.append [s]) := by
  have htaken : db.jobs.any (·.value.id == s.id) = false :=
    Bool.eq_false_iff.mpr fun htaken => hnew (h.any_iff.mp htaken)
  have hjob : db.Leaves [insertJob s.job] { t with jobs := t.jobs ++ [s.job] } := by
    have hrun : (insertJob s.job).run db = .ok { db with jobs := ⟨db.nextJob, s.job⟩ :: db.jobs } :=
      if_neg (Bool.eq_false_iff.mp htaken)
    have hids : ((t.jobs ++ [s.job]).map Job.id).Nodup := by
      rw [List.map_append, List.map_singleton]
      refine List.nodup_append.mpr ⟨h.unique, List.nodup_singleton _, ?_⟩
      rintro i hi _ hj rfl
      obtain rfl := List.mem_singleton.mp hj
      exact hnew hi
    exact .one hrun (h.of_jobs (h.jobs.insert s.job) hids)
  have hguards : ∀ {db t}, Holds db t →
      db.Leaves (s.guards.map insertGuard) { t with guards := t.guards ++ s.guards } :=
    .map (fun t l => { t with guards := t.guards ++ l }) (by simp) (by simp) leaves_insertGuard _
  have hedges : ∀ {db t}, Holds db t →
      db.Leaves (s.edges.map insertEdge) { t with edges := t.edges ++ s.edges } :=
    .map (fun t l => { t with edges := t.edges ++ l }) (by simp) (by simp) leaves_insertEdge _
  have hall := hjob.append fun h₁ => (hguards h₁).append fun h₂ => hedges h₂
  simpa [Tables.append, insertStatements] using hall

/-! ## 4. Calls -/

theorem update_alike (h : db.Holds t) {id : JobId} {f : Job → Job}
    (hf : ∀ j, j.id = id → (f j).id = j.id) : Alike Holds (db.update id f) (t.modify id f) := by
  unfold Database.update Tables.modify
  by_cases hheld : Held t.jobs id
  · rw [if_pos (h.any_iff.mpr hheld), if_pos (Tables.contains_iff.mpr hheld)]
    exact (h.leaves_updateJob hf).alike
  · rw [if_neg fun hany => hheld (h.any_iff.mp hany),
      if_neg fun hc => hheld (Tables.contains_iff.mp hc)]
    exact .error _

end Holds

end Database

theorem firstDuplicate_congr : ∀ (batch : List Submission) {taken taken' : List JobId},
    (∀ i, i ∈ taken ↔ i ∈ taken') → firstDuplicate taken batch = firstDuplicate taken' batch
  | [], _, _, _ => rfl
  | s :: rest, taken, taken', h => by
    have hrest : firstDuplicate (s.id :: taken) rest = firstDuplicate (s.id :: taken') rest :=
      firstDuplicate_congr rest fun i => by rw [List.mem_cons, List.mem_cons, h]
    simp only [firstDuplicate, h, hrest]

namespace Tables

variable {t : Tables} {s : Submission}

theorem insert_of_held (rest : List Submission) (h : Held t.jobs s.id) :
    t.insert (s :: rest) = .error (.duplicate s.id) := by
  have hdup : firstDuplicate (t.jobs.map Job.id) (s :: rest) = some s.id := if_pos h
  rw [Tables.insert, hdup]

/-- Looking through a batch beforehand comes to looking at each job when it is its turn. -/
theorem insert_of_not_held (rest : List Submission) (h : ¬Held t.jobs s.id) :
    t.insert (s :: rest) = (t.append [s]).insert rest := by
  have hdup : firstDuplicate (t.jobs.map Job.id) (s :: rest)
      = firstDuplicate ((t.append [s]).jobs.map Job.id) rest := by
    refine (if_neg h).trans (firstDuplicate_congr rest fun i => ?_)
    simp [Tables.append, Submission.id, or_comm]
  have hall : t.append (s :: rest) = (t.append [s]).append rest := by simp [Tables.append]
  rw [Tables.insert, Tables.insert, hdup, hall]

theorem delete_nil (t : Tables) : t.delete [] = t := by simp [Tables.delete]

theorem delete_cons (t : Tables) (id : JobId) (ids : List JobId) :
    (t.delete [id]).delete ids = t.delete (id :: ids) := by
  simp only [Tables.delete, List.filter_filter, Tables.mk.injEq]
  refine ⟨List.filter_congr fun j _ => ?_, List.filter_congr fun g _ => ?_,
    List.filter_congr fun e _ => ?_⟩
  · simp [Bool.and_comm]
  · simp [Bool.and_comm]
  · simp [Bool.and_comm, Bool.and_left_comm, Bool.and_assoc]

end Tables

namespace Database

open Statement

namespace Holds

/-- A batch is turned down for the same job, whether it is looked through beforehand or the taken id
is met midway. -/
theorem insert_alike : ∀ (batch : List Submission) {db : Database} {t : Tables}, db.Holds t →
    Alike Holds (transaction (batch.flatMap insertStatements) db) (t.insert batch)
  | [], db, t, h => by
    have hnil : t.insert [] = .ok t := by simp [Tables.insert, firstDuplicate, Tables.append]
    rw [hnil]
    exact .ok h
  | s :: rest, db, t, h => by
    by_cases hheld : Held t.jobs s.id
    · have hrun : (insertJob s.job).run db = .error (.duplicate s.id) :=
        if_pos (h.any_iff.mpr hheld)
      have hfail : transaction ((s :: rest).flatMap insertStatements) db
          = .error (.duplicate s.id) := by
        rw [List.flatMap_cons, insertStatements, List.cons_append, transaction, List.foldlM_cons,
          hrun]
        rfl
      rw [hfail, Tables.insert_of_held rest hheld]
      exact .error _
    · obtain ⟨db', hrun, hdb'⟩ := h.leaves_insert hheld
      have hnext : transaction ((s :: rest).flatMap insertStatements) db
          = transaction (rest.flatMap insertStatements) db' := by
        rw [List.flatMap_cons, transaction, List.foldlM_append]
        show transaction (insertStatements s) db >>= transaction _ = _
        rw [hrun]
        rfl
      rw [hnext, Tables.insert_of_not_held rest hheld]
      exact insert_alike rest hdb'

variable {db : Database} {t : Tables}

theorem call (h : db.Holds t) (c : StoreCall) : Alike Holds (c.run db) (c.run t) := by
  cases c with
  | insert batch => exact insert_alike batch h
  | setRunning id running => exact h.update_alike fun _ _ => rfl
  | reschedule id running attempt due payload => exact h.update_alike fun _ _ => rfl
  | clearRunning => exact h.leaves_clearRunning.alike
  | amend jobs =>
    refine (Leaves.map (fun t l => t.amend l) (fun _ => rfl) (fun _ _ _ => rfl) ?_ jobs h).alike
    exact fun h j => h.leaves_updateJob fun _ hid => hid.symm
  | delete ids =>
    exact (Leaves.flatMap (fun t l => t.delete l) Tables.delete_nil Tables.delete_cons leaves_delete
      ids h).alike

theorem simulation : Simulation Holds := ⟨call, load_eq⟩

end Holds

/-! ## 5. Other keys -/

/-- The same database with other keys. -/
def renumber (f g h : Nat → Nat) (db : Database) : Database where
  jobs := db.jobs.map fun r => { r with key := f r.key }
  guards := db.guards.map fun r => { r with key := g r.key }
  edges := db.edges.map fun r => { r with key := h r.key }
  nextGuard := g db.nextGuard
  nextEdge := h db.nextEdge

theorem Holds.renumber {db : Database} {t : Tables} (hdb : db.Holds t) {f g h : Nat → Nat}
    (hf : StrictMono f) (hg : StrictMono g) (hh : StrictMono h) :
    (db.renumber f g h).Holds t where
  jobs := { hdb.jobs.renumber hf with below := lt_nextJob _ }
  guards := hdb.guards.renumber hg
  edges := hdb.edges.renumber hh
  unique := hdb.unique

/-- The answers to calls of a database that may put its rows under other keys before each of them,
as long as their order stays the same.  So nothing is said of new keys but that they are larger than
those of older rows. -/
inductive Session : List StoreCall → Database → List Answer → Prop
  | done (db : Database) : Session [] db []
  | call {c : StoreCall} {rest : List StoreCall} {db : Database} {later : List Answer}
    {f g h : Nat → Nat} : StrictMono f → StrictMono g → StrictMono h →
    Session rest (c.after (db.renumber f g h)) later →
    Session (c :: rest) db (c.answer (db.renumber f g h) :: later)

theorem Session.eq_answers {calls : List StoreCall} {db : Database} {as : List Answer}
    (hs : Session calls db as) {t : Tables} (hdb : db.Holds t) : as = answers calls t := by
  induction hs generalizing t with
  | done db => rfl
  | call hf hg hh _ ih =>
    have hdb' := hdb.renumber hf hg hh
    rw [answers, Holds.simulation.answer_eq hdb', ih (Holds.simulation.after hdb' _)]

end Database

/-! ## 6. Both kinds of stores -/

namespace Backend

theorem run_memory (c : StoreCall) (t : Tables) : c.run (memory t) = (c.run t).map memory := by
  cases c <;> rfl

theorem run_database (c : StoreCall) (k : Connection) :
    c.run (database k) = (c.run k).map database := by
  cases c <;> rfl

/-- A connection that is open passes calls on, if its database may be written. -/
theorem run_connection (c : StoreCall) (db : Database) :
    c.run ({ database := db } : Connection) = (c.run db).map fun db => { database := db } := by
  cases c <;> rfl

/-- Tables in memory, or a connection to a database that holds them. -/
inductive Keeps : Backend → Tables → Prop
  | memory (t : Tables) : Keeps (memory t) t
  | database {db : Database} {t : Tables} : db.Holds t → Keeps (database { database := db }) t

theorem keeps_simulation : Simulation Keeps where
  call h c := by
    cases h with
    | memory =>
      rw [run_memory]
      refine (Alike.refl _).map_left ?_
      rintro t _ rfl
      exact .memory t
    | database hdb =>
      rw [run_database, run_connection]
      have hconnection : Alike (fun (k : Connection) t => Keeps (Backend.database k) t) _ _ :=
        (hdb.call c).map_left (f := fun db => { database := db }) .database
      exact hconnection.map_left (f := Backend.database) id
  load h := by
    cases h with
    | memory t => rfl
    | database hdb => exact hdb.load_eq

end Backend

/-- **Tables in memory and a database answer alike**, whatever they are called with: each call has
the same result, and afterwards the same is loaded.  So it is whatever the keys of a database are,
if they grow in the order in which rows are inserted.  What is loaded is what was inserted and not
deleted since, jobs by age and then by insertion, rows by insertion. -/
theorem backends_interchangeable (calls : List StoreCall) :
    answers calls (Backend.database {}) = answers calls (Backend.memory {}) ∧
      (∀ as, Database.Session calls {} as → as = answers calls (Backend.memory {})) ∧
      Ledger.Confirms {} calls (answers calls (Backend.memory {})) := by
  have hmemory : answers calls (Backend.memory {}) = answers calls ({} : Tables) :=
    Backend.keeps_simulation.answers_eq calls (.memory {})
  have hdatabase : answers calls (Backend.database {}) = answers calls ({} : Tables) :=
    Backend.keeps_simulation.answers_eq calls (.database .empty)
  refine ⟨hdatabase.trans hmemory.symm, fun as hs => (hs.eq_answers .empty).trans hmemory.symm, ?_⟩
  rw [hmemory]
  exact Ledger.Kept.confirms calls ⟨rfl, rfl, rfl⟩

end Backlog
