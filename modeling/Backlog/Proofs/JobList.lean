/-
# Lists of jobs in which no id occurs twice

The roster and the tables keep their jobs in lists, and change them by looking for the first job
with an id.  As long as no id occurs twice there is only one such job, so the order of the list
does not matter to a look-up (`find?_id_of_perm`) and a change of the first match is a change of
every match (`modifyFirst_id_eq_map`).
-/
import Backlog.Roster

namespace Backlog

theorem modifyFirst_of_find? {α : Type} {p : α → Bool} {f : α → α} {a : α} : ∀ {l : List α},
    l.find? p = some a → modifyFirst p (fun _ => f a) l = modifyFirst p f l
  | [], h => by simp at h
  | b :: l, h => by
    by_cases hp : p b = true
    · rw [List.find?_cons_of_pos hp, Option.some.injEq] at h
      subst h
      simp [modifyFirst, hp]
    · rw [List.find?_cons_of_neg hp] at h
      simp [modifyFirst, hp, modifyFirst_of_find? h]

/-- Whoever is there after a change was there before, or is what became of the changed one. -/
theorem mem_of_mem_modifyFirst {α : Type} {p : α → Bool} {f : α → α} {b : α} : ∀ {l : List α},
    b ∈ modifyFirst p f l → b ∈ l ∨ ∃ a ∈ l, p a = true ∧ b = f a
  | [], h => by simp [modifyFirst] at h
  | a :: l, h => by
    unfold modifyFirst at h
    split at h
    · rename_i hp
      rcases List.mem_cons.mp h with rfl | hmem
      · exact .inr ⟨a, List.mem_cons_self, hp, rfl⟩
      · exact .inl (List.mem_cons_of_mem _ hmem)
    · rcases List.mem_cons.mp h with rfl | hmem
      · exact .inl List.mem_cons_self
      · rcases mem_of_mem_modifyFirst hmem with hmem | ⟨c, hc, hp, rfl⟩
        · exact .inl (List.mem_cons_of_mem _ hmem)
        · exact .inr ⟨c, List.mem_cons_of_mem _ hc, hp, rfl⟩

theorem modifyFirst_id_eq_map {id : JobId} {f : Job → Job} : ∀ {l : List Job},
    (l.map Job.id).Nodup →
      modifyFirst (·.id == id) f l = l.map fun j => if j.id = id then f j else j
  | [], _ => rfl
  | j :: l, h => by
    obtain ⟨hj, hl⟩ := List.nodup_cons.mp h
    by_cases hid : j.id = id
    · have hrest : ∀ k ∈ l, ¬k.id = id := by
        rintro k hk rfl
        exact hj (hid ▸ List.mem_map.mpr ⟨k, hk, rfl⟩)
      have hmap : (l.map fun k => if k.id = id then f k else k) = l :=
        (List.map_congr_left fun k hk => if_neg (hrest k hk)).trans l.map_id
      simp only [modifyFirst, hid, beq_self_eq_true, if_true, List.map_cons, hmap]
    · simp [modifyFirst, hid, modifyFirst_id_eq_map hl]

theorem find?_id_eq_some_iff {id : JobId} {j : Job} : ∀ {l : List Job}, (l.map Job.id).Nodup →
    (l.find? (·.id == id) = some j ↔ j ∈ l ∧ j.id = id)
  | [], _ => by simp
  | k :: l, h => by
    obtain ⟨hk, hl⟩ := List.nodup_cons.mp h
    by_cases hid : k.id = id
    · rw [List.find?_cons_of_pos (by simpa using hid), Option.some.injEq]
      constructor
      · rintro rfl
        exact ⟨List.mem_cons_self, hid⟩
      · rintro ⟨hmem, rfl⟩
        rcases List.mem_cons.mp hmem with rfl | hmem
        · rfl
        · exact absurd (hid ▸ List.mem_map.mpr ⟨j, hmem, rfl⟩) hk
    · rw [List.find?_cons_of_neg (by simpa using hid), find?_id_eq_some_iff hl]
      constructor
      · rintro ⟨hmem, rfl⟩
        exact ⟨List.mem_cons_of_mem _ hmem, rfl⟩
      · rintro ⟨hmem, rfl⟩
        rcases List.mem_cons.mp hmem with rfl | hmem
        · exact absurd rfl hid
        · exact ⟨hmem, rfl⟩

theorem find?_id_of_perm {l l' : List Job} (hp : l.Perm l') (h : (l'.map Job.id).Nodup)
    (id : JobId) : l.find? (·.id == id) = l'.find? (·.id == id) := by
  have hl : (l.map Job.id).Nodup := (hp.map Job.id).nodup_iff.mpr h
  refine Option.ext fun j => ?_
  rw [find?_id_eq_some_iff hl, find?_id_eq_some_iff h, hp.mem_iff]

theorem map_id_of_keeps {f : Job → Job} (hf : ∀ j, (f j).id = j.id) (l : List Job) :
    (l.map f).map Job.id = l.map Job.id := by
  rw [List.map_map]
  exact List.map_congr_left fun j _ => hf j

end Backlog
