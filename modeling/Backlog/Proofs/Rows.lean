/-
# Rows and the jobs they name

A row names the job it belongs to, and comes in with a job that need not be the one it names.  The
roster files it under the job it came in with, the tables keep it as it is, and a restart files it
under the job it names.  So which job a row applies to depends on when one asks, unless it came in
with the job it names.

* `Row`: the two kinds of rows, guards and edges, with what each change does to either kind;
* `Delivery`: a row that was accepted, with the job it came in with, and whether it is still filed
  and still stored; `deliveries`: all of them over a run, deletions struck out;
* `Accounted`: the roster shows the deliveries that are still filed and the tables those that are
  still stored, and `Accounted.perform`, `Accounted.run`: that is so after every run;
* `Accounted.rowsOf_eq_iff`: **the roster shows under each id what a restart would show exactly if
  no delivery is astray** (`rows_apply_iff`);
* `strayed_restart`: a batch of one job with rows of another one.
-/
import Backlog.Proofs.Restart

namespace Backlog

/-! ## 1. The two kinds of rows -/

/-- A kind of rows: what a row says, where rows are kept, and what changes do to them. -/
class Row (α : Type) where
  /-- The job that a row names as the one it belongs to. -/
  owner : α → JobId
  /-- The job that a row waits for, if it waits for one. -/
  waitsOn? : α → Option JobId
  carried : Submission → List α
  filed : Roster → Filed α
  stored : Tables → List α
  owner_of_wellFormed {s : Submission} : s.WellFormed → ∀ row ∈ carried s, owner row = s.id
  filed_empty : filed {} = {}
  stored_empty : stored {} = []
  filed_jobs (r : Roster) (jobs : List Job) : filed { r with jobs } = filed r
  stored_jobs (t : Tables) (jobs : List Job) : stored { t with jobs } = stored t
  filed_insert (r : Roster) (batch : List Submission) :
    filed (r.insert batch) = batch.foldl (fun f s => f.file s.id (carried s)) (filed r)
  stored_append (t : Tables) (batch : List Submission) :
    stored (t.append batch) = stored t ++ batch.flatMap carried
  rowsOf_remove (r : Roster) (ids : List JobId) (id : JobId) :
    (filed (r.remove ids)).rowsOf id =
      if id ∈ ids then []
      else ((filed r).rowsOf id).filter fun row => !(waitsOn? row).any ids.contains
  stored_delete (t : Tables) (ids : List JobId) :
    stored (t.delete ids) = (stored t).filter fun row =>
      !ids.contains (owner row) && !(waitsOn? row).any ids.contains
  filed_ofSnapshot (t : Tables) : filed (.ofSnapshot t.snapshot) = .byKey owner (stored t)

instance : Row Guard where
  owner := Guard.job
  waitsOn? _ := none
  carried := Submission.guards
  filed := Roster.guards
  stored := Tables.guards
  owner_of_wellFormed h := h.1
  filed_empty := rfl
  stored_empty := rfl
  filed_jobs _ _ := rfl
  stored_jobs _ _ := rfl
  filed_insert r batch := by rw [Roster.insert_eq]
  stored_append _ _ := rfl
  rowsOf_remove r ids id := by simp [Roster.remove, Filed.rowsOf_dropAll]
  stored_delete t ids := by simp [Tables.delete]
  filed_ofSnapshot _ := rfl

instance : Row Edge where
  owner := Edge.job
  waitsOn? e := some e.waitsOn
  carried := Submission.edges
  filed := Roster.edges
  stored := Tables.edges
  owner_of_wellFormed h := h.2
  filed_empty := rfl
  stored_empty := rfl
  filed_jobs _ _ := rfl
  stored_jobs _ _ := rfl
  filed_insert r batch := by rw [Roster.insert_eq]
  stored_append _ _ := rfl
  rowsOf_remove r ids id := by
    rw [Roster.remove, Filed.rowsOf_keep, Filed.rowsOf_dropAll]
    by_cases hid : id ∈ ids <;> simp [hid]
  stored_delete t ids := by simp [Tables.delete]
  filed_ofSnapshot _ := rfl

variable {α : Type} [Row α]

open Row (owner waitsOn? carried filed stored)

theorem Row.filed_foldl_replace : ∀ (jobs : List Job) (r : Roster),
    filed (α := α) (jobs.foldl Roster.replace r) = filed r
  | [], _ => rfl
  | j :: rest, r => (filed_foldl_replace rest (r.replace j)).trans (filed_jobs r _)

theorem Row.stored_amend : ∀ (jobs : List Job) (t : Tables),
    stored (α := α) (t.amend jobs) = stored t
  | [], _ => rfl
  | j :: rest, t => (stored_amend rest (t.replace j)).trans (stored_jobs t _)

/-! ## 2. Deliveries -/

/-- An accepted row. -/
structure Delivery (α : Type) where
  /-- The job it came in with.  If it has been read afresh since, the job that it names. -/
  carrier : JobId
  row : α
  /-- Whether the roster still has it. -/
  filed : Bool := true
  /-- Whether the tables still have it. -/
  stored : Bool := true

namespace Delivery

/-- Deletion.  The roster goes by the carrier and the tables go by the owner. -/
def strike (ids : List JobId) (δ : Delivery α) : Delivery α :=
  { δ with
    filed := δ.filed && (!ids.contains δ.carrier && !(waitsOn? δ.row).any ids.contains)
    stored := δ.stored && (!ids.contains (owner δ.row) && !(waitsOn? δ.row).any ids.contains) }

/-- It is read afresh. -/
def refile (δ : Delivery α) : Delivery α := { carrier := owner δ.row, row := δ.row }

/-- It is still there, and came in with another job than the one it names. -/
def Astray (δ : Delivery α) : Prop :=
  (δ.filed = true ∨ δ.stored = true) ∧ δ.carrier ≠ owner δ.row

end Delivery

/-- What a change that goes through does to the deliveries. -/
def Change.deliver (c : Change) (ds : List (Delivery α)) : List (Delivery α) :=
  match c with
  | insert batch => ds ++ batch.flatMap fun s => (carried s).map fun row => { carrier := s.id, row }
  | delete ids => ds.map (·.strike ids)
  | reopen _ => (ds.filter Delivery.stored).map .refile
  | _ => ds

/-- The deliveries after a run that begins at `x` with those in `ds`.  A change that is turned down
delivers nothing. -/
def deliveries : MemoryIndex → List (Delivery α) → List Change → List (Delivery α)
  | _, ds, [] => ds
  | x, ds, c :: rest =>
    deliveries (x.after c) (if (x.perform c).isOk then c.deliver ds else ds) rest

/-- The rows that name `id` and have not been deleted, in the order in which they were accepted. -/
def named (ds : List (Delivery α)) (id : JobId) : List α :=
  (ds.filter fun δ => δ.stored && owner δ.row == id).map Delivery.row

/-- The roster shows the deliveries that are still filed, under their carriers, and the tables show
those that are still stored. -/
structure Accounted (x : MemoryIndex) (ds : List (Delivery α)) : Prop where
  rowsOf (id : JobId) : (filed x.roster).rowsOf id =
    (ds.filter fun δ => δ.filed && δ.carrier == id).map Delivery.row
  table : stored x.store.inner = (ds.filter Delivery.stored).map Delivery.row
  /-- What came in with the job it names is still on both sides, or on neither. -/
  together (δ : Delivery α) : δ ∈ ds → δ.carrier = owner δ.row → δ.filed = δ.stored

/-! ## 3. What changes do -/

namespace Accounted

variable {x y : MemoryIndex} {ds : List (Delivery α)}

theorem fresh (d : Discipline) : Accounted (.fresh d) ([] : List (Delivery α)) where
  rowsOf id := by simp [Index.fresh, Row.filed_empty]
  table := by simp [Index.fresh, Row.stored_empty]
  together := by simp

theorem insert (h : Accounted x ds) (batch : List Submission) :
    Accounted (x.holding (x.store.inner.append batch) (x.roster.insert batch))
      ((Change.insert batch).deliver ds) where
  rowsOf id := by
    rw [Index.roster_holding, Row.filed_insert, Filed.rowsOf_foldl_file_batch, h.rowsOf,
      Change.deliver, List.filter_append, List.map_append, List.filter_flatMap, List.map_flatMap]
    congr 1
    refine List.flatMap_congr fun s _ => ?_
    by_cases hid : id = s.id
    · simp [List.filter_map, Function.comp_def, hid]
    · have hid' : ¬s.id = id := fun h => hid h.symm
      simp [List.filter_map, Function.comp_def, hid, hid']
  table := by
    rw [Index.inner_holding, Row.stored_append, h.table, Change.deliver, List.filter_append,
      List.map_append, List.filter_flatMap, List.map_flatMap]
    simp [List.filter_map, Function.comp_def]
  together δ hδ hown := by
    rcases List.mem_append.mp hδ with hδ | hδ
    · exact h.together δ hδ hown
    · obtain ⟨s, -, hrow⟩ := List.mem_flatMap.mp hδ
      obtain ⟨row, -, rfl⟩ := List.mem_map.mp hrow
      rfl

theorem delete (h : Accounted x ds) (ids : List JobId) :
    Accounted (x.holding (x.store.inner.delete ids) (x.roster.remove ids))
      ((Change.delete ids).deliver ds) where
  rowsOf id := by
    rw [Index.roster_holding, Row.rowsOf_remove, h.rowsOf, Change.deliver]
    simp only [List.filter_map, List.map_map, List.filter_filter, Function.comp_def,
      Delivery.strike]
    by_cases hid : id ∈ ids
    · rw [if_pos hid, eq_comm, List.map_eq_nil_iff, List.filter_eq_nil_iff]
      intro δ _ hkept
      simp only [Bool.and_eq_true, beq_iff_eq, Bool.not_eq_true', List.contains_eq_mem,
        decide_eq_false_iff_not] at hkept
      obtain ⟨⟨-, hcarrier, -⟩, rfl⟩ := hkept
      exact hcarrier hid
    · rw [if_neg hid]
      congr 1
      refine List.filter_congr fun δ _ => ?_
      by_cases hcarrier : δ.carrier = id
      · simp [hcarrier, hid, Bool.and_comm]
      · have hother : (δ.carrier == id) = false := by simpa using hcarrier
        simp [hother]
  table := by
    rw [Index.inner_holding, Row.stored_delete, h.table, Change.deliver]
    simp only [List.filter_map, List.map_map, List.filter_filter, Function.comp_def,
      Delivery.strike]
    congr 1
    exact List.filter_congr fun δ _ => Bool.and_comm _ _
  together δ hδ hown := by
    obtain ⟨δ₀, hδ₀, rfl⟩ := List.mem_map.mp hδ
    have hown₀ : δ₀.carrier = owner δ₀.row := hown
    simp only [Delivery.strike, h.together δ₀ hδ₀ hown₀, hown₀]

theorem reopen (h : Accounted x ds) (d : Discipline) :
    Accounted (x.reread d) ((Change.reopen d).deliver ds) where
  rowsOf id := by
    show (filed (.ofSnapshot x.store.inner.snapshot)).rowsOf id = _
    rw [Row.filed_ofSnapshot, Filed.rowsOf_byKey, h.table, Change.deliver, List.filter_map,
      List.filter_map, List.map_map]
    simp [Function.comp_def, Delivery.refile]
  table := by
    show stored x.store.inner = _
    rw [h.table, Change.deliver, List.filter_map, List.map_map]
    simp [Function.comp_def, Delivery.refile]
  together δ hδ _ := by
    obtain ⟨δ, -, rfl⟩ := List.mem_map.mp hδ
    rfl

/-- Whatever happens to the jobs, rows do not notice. -/
theorem of_rows_eq (h : Accounted x ds) (hf : filed (α := α) y.roster = filed x.roster)
    (ht : stored (α := α) y.store.inner = stored x.store.inner) : Accounted y ds where
  rowsOf id := by rw [hf, h.rowsOf]
  table := by rw [ht, h.table]
  together := h.together

theorem perform (h : Accounted x ds) {c : Change} (hxy : x.perform c = .ok y) :
    Accounted y (c.deliver ds) := by
  cases c with
  | insert batch =>
    obtain ⟨-, -, -, rfl⟩ := Index.insert_eq_ok_iff.mp hxy
    exact h.insert batch
  | setRunning id running =>
    obtain ⟨-, -, -, rfl⟩ := Index.setRunning_eq_ok_iff.mp hxy
    exact h.of_rows_eq (Row.filed_jobs _ _) (Row.stored_jobs _ _)
  | reschedule id running attempt due payload =>
    obtain ⟨-, -, -, rfl⟩ := Index.reschedule_eq_ok_iff.mp hxy
    exact h.of_rows_eq (Row.filed_jobs _ _) (Row.stored_jobs _ _)
  | clearRunning =>
    obtain ⟨-, rfl⟩ := Index.clearRunning_eq_ok_iff.mp hxy
    exact h.of_rows_eq (Row.filed_jobs _ _) (Row.stored_jobs _ _)
  | amend jobs =>
    obtain ⟨-, rfl⟩ := Index.amend_eq_ok_iff.mp hxy
    exact h.of_rows_eq (Row.filed_foldl_replace _ _) (Row.stored_amend _ _)
  | delete ids =>
    obtain ⟨-, rfl⟩ := Index.delete_eq_ok_iff.mp hxy
    exact h.delete ids
  | reopen d =>
    obtain rfl := Index.open_eq_ok_iff.mp hxy
    exact h.reopen d
  | refuse refusing =>
    obtain rfl := Except.ok.inj hxy
    exact h.of_rows_eq rfl rfl

theorem run : ∀ (changes : List Change) {x : MemoryIndex} {ds : List (Delivery α)},
    Accounted x ds → Accounted (x.run changes) (deliveries x ds changes)
  | [], _, _, h => h
  | c :: rest, x, ds, h => by
    have hstep : Accounted (x.after c) (if (x.perform c).isOk then c.deliver ds else ds) := by
      unfold Index.after
      cases hc : x.perform c with
      | ok y => exact h.perform hc
      | error e => exact h
    exact run rest hstep

/-! ## 4. Before and after a restart -/

/-- A restart shows under each id the rows that name it. -/
theorem rowsOf_reread (h : Accounted x ds) (d : Discipline) (id : JobId) :
    (filed (x.reread d).roster).rowsOf id = named ds id := by
  rw [(h.reopen d).rowsOf, Change.deliver, List.filter_map, List.map_map, List.filter_filter]
  simp only [named, Function.comp_def, Delivery.refile, Bool.true_and, Bool.and_comm]

/-- What is shown under an id is what names it, unless a delivery is astray. -/
theorem rowsOf_eq_named (h : Accounted x ds) (hnone : ∀ δ ∈ ds, ¬δ.Astray) (id : JobId) :
    (filed x.roster).rowsOf id = named ds id := by
  rw [h.rowsOf, named]
  congr 1
  refine List.filter_congr fun δ hδ => ?_
  by_cases hown : δ.carrier = owner δ.row
  · rw [hown, h.together δ hδ hown]
  · have hgone : ¬(δ.filed = true ∨ δ.stored = true) := fun hthere => hnone δ hδ ⟨hthere, hown⟩
    simp only [not_or, Bool.not_eq_true] at hgone
    rw [hgone.1, hgone.2, Bool.false_and, Bool.false_and]

/-- **Rows apply where they are named exactly if no delivery is astray.** -/
theorem rowsOf_eq_iff (h : Accounted x ds) :
    (∀ id, (filed x.roster).rowsOf id = named ds id) ↔ ∀ δ ∈ ds, ¬δ.Astray := by
  refine ⟨fun hsame => ?_, h.rowsOf_eq_named⟩
  -- whatever is filed stands where it is named, for everything that is shown there is named there
  have hfiled : ∀ δ ∈ ds, δ.filed = true → δ.carrier = owner δ.row := by
    intro δ hδ hf
    have hshown : δ.row ∈ named ds δ.carrier := by
      rw [← hsame, h.rowsOf]
      exact List.mem_map.mpr ⟨δ, List.mem_filter.mpr ⟨hδ, by simp [hf]⟩, rfl⟩
    obtain ⟨ε, hε, hrow⟩ := List.mem_map.mp hshown
    have hnamed := (List.mem_filter.mp hε).2
    simp only [Bool.and_eq_true, beq_iff_eq] at hnamed
    rw [← hrow, hnamed.2]
  rintro δ hδ ⟨hf | hs, hne⟩
  · exact hne (hfiled δ hδ hf)
  -- what is filed under an id is part of what names it, and leaves no room for one more
  have hpart : (ds.filter fun ε => ε.filed && ε.carrier == owner δ.row)
      = (ds.filter fun ε => ε.stored && owner ε.row == owner δ.row).filter
          fun ε => ε.filed && ε.carrier == owner δ.row := by
    rw [List.filter_filter]
    refine List.filter_congr fun ε hε => ?_
    cases hf : ε.filed with
    | false => simp
    | true =>
      have hown := hfiled ε hε hf
      rw [← h.together ε hε hown, hf, hown]
      simp
  have hlength := congrArg List.length (hsame (owner δ.row))
  rw [h.rowsOf, named, List.length_map, List.length_map, hpart,
    List.length_filter_eq_length_iff] at hlength
  have hmem : δ ∈ ds.filter fun ε => ε.stored && owner ε.row == owner δ.row :=
    List.mem_filter.mpr ⟨hδ, by simp [hs]⟩
  have hf := hlength δ hmem
  rw [Bool.and_eq_true] at hf
  exact hne (hfiled δ hδ hf.1)

end Accounted

/-! ## 5. Rows that come in where they belong -/

/-- Every row came in with the job it names. -/
def Placed (ds : List (Delivery α)) : Prop := ∀ δ ∈ ds, δ.carrier = owner δ.row

namespace Placed

variable {ds : List (Delivery α)}

theorem not_astray (h : Placed ds) : ∀ δ ∈ ds, ¬δ.Astray := fun δ hδ hastray =>
  hastray.2 (h δ hδ)

/-- Whatever there was before a restart. -/
theorem reopen (ds : List (Delivery α)) (d : Discipline) :
    Placed ((Change.reopen d).deliver ds) := by
  intro δ hδ
  obtain ⟨δ, -, rfl⟩ := List.mem_map.mp hδ
  rfl

theorem deliver (h : Placed ds) {c : Change} (hc : c.WellFormed) : Placed (c.deliver ds) := by
  cases c with
  | insert batch =>
    intro δ hδ
    rcases List.mem_append.mp hδ with hδ | hδ
    · exact h δ hδ
    · obtain ⟨s, hs, hmem⟩ := List.mem_flatMap.mp hδ
      obtain ⟨row, hrow, rfl⟩ := List.mem_map.mp hmem
      exact (Row.owner_of_wellFormed (hc s hs) row hrow).symm
  | delete ids =>
    intro δ hδ
    obtain ⟨δ₀, hδ₀, rfl⟩ := List.mem_map.mp hδ
    exact h δ₀ hδ₀
  | reopen d => exact reopen ds d
  | setRunning | reschedule | clearRunning | amend | refuse => exact h

theorem run : ∀ (changes : List Change) {x : MemoryIndex} {ds : List (Delivery α)}, Placed ds →
    (∀ c ∈ changes, c.WellFormed) → Placed (deliveries x ds changes)
  | [], _, _, h, _ => h
  | c :: rest, x, ds, h, hw => by
    have hstep : Placed (if (x.perform c).isOk then c.deliver ds else ds) := by
      split
      · exact h.deliver (hw c List.mem_cons_self)
      · exact h
    exact run rest hstep fun e he => hw e (List.mem_cons_of_mem _ he)

end Placed

/-! ## 6. Guards and edges -/

/-- Both rosters show the same rows under every id. -/
def Roster.SameRows (r f : Roster) : Prop :=
  ∀ id, r.guards.rowsOf id = f.guards.rowsOf id ∧ r.edges.rowsOf id = f.edges.rowsOf id

/-- Whom a stored job blocks is a matter of the edges alone: a restart finds the same jobs. -/
theorem isBlocked_reread {x : MemoryIndex} (hm : Matched x.roster x.store.inner) {d : Discipline}
    (hrows : x.roster.SameRows (x.reread d).roster) (id : JobId) :
    x.roster.isBlocked id = (x.reread d).roster.isBlocked id := by
  have hperm : x.roster.jobs.Perm (x.reread d).roster.jobs := hm.perm.trans hm.reopen.perm.symm
  have hany : ∀ e : Edge, (x.roster.jobs.any fun j => j.id == e.waitsOn)
      = (x.reread d).roster.jobs.any fun j => j.id == e.waitsOn := by
    intro e
    rw [Bool.eq_iff_iff, List.any_eq_true, List.any_eq_true]
    simp only [hperm.mem_iff]
  simp only [Roster.isBlocked, (hrows id).2, hany]

/-- Where all deliveries of both kinds are accounted for, a restart shows what is shown already
exactly if none is astray. -/
theorem sameRows_reread_iff {x : MemoryIndex} {gs : List (Delivery Guard)}
    {es : List (Delivery Edge)} (hg : Accounted x gs) (he : Accounted x es) (d : Discipline) :
    x.roster.SameRows (x.reread d).roster ↔ (∀ g ∈ gs, ¬g.Astray) ∧ ∀ e ∈ es, ¬e.Astray := by
  rw [← hg.rowsOf_eq_iff, ← he.rowsOf_eq_iff, ← forall_and]
  refine forall_congr' fun id => ?_
  rw [← hg.rowsOf_reread d, ← he.rowsOf_reread d]
  rfl

/-- **Which rows apply to a job.**  After every run, whatever the batches bring: a restart shows
under each id the accepted rows that name it and have not been deleted, in order.  The roster shows
the same exactly if no row that is still there came in with another job than the one it names; then
the restart blocks nobody else either.  And from a restart on, well-formed batches keep it so. -/
theorem rows_apply_iff (d₀ d : Discipline) (changes : List Change) :
    let x := (Index.fresh d₀).run changes
    let guards : List (Delivery Guard) := deliveries (.fresh d₀) [] changes
    let edges : List (Delivery Edge) := deliveries (.fresh d₀) [] changes
    (∀ id, (x.reread d).roster.guards.rowsOf id = named guards id ∧
      (x.reread d).roster.edges.rowsOf id = named edges id) ∧
    (x.roster.SameRows (x.reread d).roster ↔
      (∀ g ∈ guards, ¬g.Astray) ∧ ∀ e ∈ edges, ¬e.Astray) ∧
    (x.roster.SameRows (x.reread d).roster →
      ∀ id, x.roster.isBlocked id = (x.reread d).roster.isBlocked id) ∧
    ∀ later : List Change, (∀ c ∈ later, c.WellFormed) →
      ((x.reread d).run later).roster.SameRows (((x.reread d).run later).reread d).roster := by
  intro x guards edges
  have hg : Accounted x guards := (Accounted.fresh d₀).run changes
  have he : Accounted x edges := (Accounted.fresh d₀).run changes
  refine ⟨fun id => ⟨hg.rowsOf_reread d id, he.rowsOf_reread d id⟩, sameRows_reread_iff hg he d,
    isBlocked_reread (matched_run d₀ changes), fun later hw => ?_⟩
  refine (sameRows_reread_iff ((hg.reopen d).run later) ((he.reopen d).run later) d).mpr ⟨?_, ?_⟩
  · exact ((Placed.reopen guards d).run later hw).not_astray
  · exact ((Placed.reopen edges d).run later hw).not_astray

/-- The first job brings two rows that name the second one, which is guarded and waits on the
third. -/
def strayedBatch : List Submission :=
  let host : Job := { id := ⟨"host"⟩, factory := "http", created := 1 }
  let guest : Job := { host with id := ⟨"guest"⟩, created := 2 }
  let last : Job := { host with id := ⟨"last"⟩, created := 3 }
  [{ job := host, guards := [⟨guest.id, "net"⟩], edges := [⟨guest.id, last.id⟩] }, { job := guest },
    { job := last }]

def strayed : MemoryIndex := (Index.fresh .runToCompletion).run [.insert strayedBatch]

/-- A restart puts the rows in their place, and they stay there. -/
theorem sameRows_mended :
    (∀ c ∈ [Change.delete [⟨"last"⟩]], c.WellFormed) ∧
      ((strayed.reread .runToCompletion).run [.delete [⟨"last"⟩]]).roster.SameRows
        (((strayed.reread .runToCompletion).run [.delete [⟨"last"⟩]]).reread
          .runToCompletion).roster := by
  have hw : ∀ c ∈ [Change.delete [⟨"last"⟩]], c.WellFormed := by decide
  exact ⟨hw, (rows_apply_iff .runToCompletion .runToCompletion [.insert strayedBatch]).2.2.2 _ hw⟩

/-- Until then the first job waits in place of the second one, which has no guard. -/
theorem strayed_restart :
    ¬∀ (d₀ d : Discipline) (changes : List Change),
      let x := (Index.fresh d₀).run changes
      x.roster.SameRows (x.reread d).roster ∧
        ∀ id, x.roster.isBlocked id = (x.reread d).roster.isBlocked id := by
  intro h
  have hblocked := (h .runToCompletion .runToCompletion [.insert strayedBatch]).2 ⟨"guest"⟩
  have hlive : strayed.roster.isBlocked ⟨"guest"⟩ = false := by cbv
  have hread : (strayed.reread .runToCompletion).roster.isBlocked ⟨"guest"⟩ = true := by cbv
  exact absurd (hlive.symm.trans (hblocked.trans hread)) (by simp)

end Backlog
