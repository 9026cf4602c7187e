import LocalDesk.Data.Grouped

/-!
# Values in the order in which they are first seen

A loop that merges every element into the row of its key leaves one row for every key, in the
order in which the keys are first seen, and each row is made of the elements with its key.
-/

namespace LocalDesk
namespace FirstSeen

open Grouped

variable {α κ κ' ρ : Type} [DecidableEq κ] [DecidableEq κ']

/-- `if !seen.contains(&k) { seen.push(k) }` -/
def see (seen : List κ) (k : κ) : List κ := if k ∈ seen then seen else seen ++ [k]

def firstSeen (ks : List κ) : List κ := ks.foldl see []

@[simp] theorem firstSeen_nil : firstSeen ([] : List κ) = [] := rfl

theorem firstSeen_concat (ks : List κ) (k : κ) : firstSeen (ks ++ [k]) = see (firstSeen ks) k := by
  rw [firstSeen, List.foldl_append]
  rfl

@[simp] theorem mem_firstSeen {ks : List κ} {k : κ} : k ∈ firstSeen ks ↔ k ∈ ks := by
  induction ks using List.reverseRecOn with
  | nil => simp
  | append_singleton ks last ih =>
    rw [firstSeen_concat, see]
    split_ifs with hseen
    · rw [ih, List.mem_append, List.mem_singleton]
      constructor
      · exact .inl
      · intro h
        obtain h | rfl := h
        · exact h
        · exact ih.mp hseen
    · rw [List.mem_append, ih, List.mem_append]

theorem nodup_firstSeen (ks : List κ) : (firstSeen ks).Nodup := by
  induction ks using List.reverseRecOn with
  | nil => exact List.nodup_nil
  | append_singleton ks last ih =>
    rw [firstSeen_concat, see]
    split_ifs with hseen
    · exact ih
    · exact List.nodup_append.mpr ⟨ih, List.nodup_singleton last, fun k hk other hother hsame =>
        hseen (List.mem_singleton.mp hother ▸ hsame ▸ hk)⟩

theorem firstSeen_map {f : κ → κ'} {ks : List κ} (h : ∀ a ∈ ks, ∀ b ∈ ks, f a = f b → a = b) :
    firstSeen (ks.map f) = (firstSeen ks).map f := by
  induction ks using List.reverseRecOn with
  | nil => rfl
  | append_singleton ks last ih =>
    have hless := ih fun a ha b hb =>
      h a (List.mem_append_left _ ha) b (List.mem_append_left _ hb)
    rw [List.map_append, List.map_singleton, firstSeen_concat, firstSeen_concat, hless, see, see]
    have hmem : f last ∈ (firstSeen ks).map f ↔ last ∈ firstSeen ks := by
      constructor
      · intro hlast
        obtain ⟨a, ha, hsame⟩ := List.mem_map.mp hlast
        have hin := List.mem_append_left [last] (mem_firstSeen.mp ha)
        rw [← h a hin last (List.mem_append_right _ List.mem_cons_self) hsame]
        exact ha
      · exact List.mem_map_of_mem
    by_cases hseen : last ∈ firstSeen ks
    · rw [if_pos hseen, if_pos (hmem.mpr hseen)]
    · rw [if_neg hseen, if_neg (mt hmem.mp hseen), List.map_append]
      rfl

theorem length_firstSeen (ks : List κ) : (firstSeen ks).length = ks.toFinset.card := by
  rw [← List.toFinset_card_of_nodup (nodup_firstSeen ks)]
  congr 1
  ext k
  simp

theorem injective_of_length {f : κ → κ'} {ks : List κ}
    (h : (firstSeen (ks.map f)).length = (firstSeen ks).length) :
    ∀ a ∈ ks, ∀ b ∈ ks, f a = f b → a = b := by
  rw [length_firstSeen, length_firstSeen] at h
  have himage : (ks.map f).toFinset = ks.toFinset.image f := by
    ext k
    simp
  rw [himage] at h
  have hinjective := Finset.injOn_of_card_image_eq h
  intro a ha b hb hsame
  exact hinjective (by simpa using ha) (by simpa using hb) hsame

section Rows

variable {key : ρ → κ} {keyOf : α → κ} {merge : α → ρ → ρ} {fresh : α → ρ}
  {row : κ → List α → ρ}

theorem upsert_map {k : κ} {change : ρ → ρ} {new : ρ} {ks : List κ} {rowOf : κ → ρ}
    (hkey : ∀ k, key (rowOf k) = k) (hnodup : ks.Nodup) :
    upsert key k change new (ks.map rowOf) =
      if k ∈ ks then ks.map fun other => if other = k then change (rowOf k) else rowOf other
      else ks.map rowOf ++ [new] := by
  induction ks with
  | nil => rfl
  | cons first ks ih =>
    obtain ⟨hnew, hrest⟩ := List.nodup_cons.mp hnodup
    rw [List.map_cons, upsert, hkey]
    by_cases hfirst : first = k
    · subst hfirst
      have hothers : ks.map (fun other => if other = first then change (rowOf first)
          else rowOf other) = ks.map rowOf := by
        apply List.map_congr_left
        intro other hother
        have hne : ¬ other = first := by
          rintro rfl
          exact hnew hother
        exact if_neg hne
      rw [if_pos rfl, if_pos List.mem_cons_self, List.map_cons, if_pos rfl, hothers]
    · rw [if_neg hfirst, ih hrest]
      have hmem : k ∈ first :: ks ↔ k ∈ ks := by
        rw [List.mem_cons]
        exact or_iff_right fun hsame => hfirst hsame.symm
      by_cases hk : k ∈ ks
      · rw [if_pos hk, if_pos (hmem.mpr hk), List.map_cons, if_neg hfirst]
      · rw [if_neg hk, if_neg (mt hmem.mp hk)]
        rfl

theorem foldl_upsert (hkey : ∀ k xs, key (row k xs) = k)
    (hfresh : ∀ x, fresh x = row (keyOf x) [x])
    (hmerge : ∀ x k xs, xs ≠ [] → merge x (row k xs) = row k (xs ++ [x])) (xs : List α) :
    xs.foldl (fun rows x => upsert key (keyOf x) (merge x) (fresh x) rows) [] =
      (firstSeen (xs.map keyOf)).map fun k => row k (xs.filter fun x => keyOf x = k) := by
  induction xs using List.reverseRecOn with
  | nil => rfl
  | append_singleton xs x ih =>
    have hmembers : ∀ k, (xs ++ [x]).filter (fun x => decide (keyOf x = k)) =
        xs.filter (fun x => decide (keyOf x = k)) ++ if keyOf x = k then [x] else [] := by
      intro k
      rw [List.filter_append]
      by_cases hx : keyOf x = k
      · simp [hx]
      · simp [hx]
    rw [List.foldl_append, ih, List.foldl_cons, List.foldl_nil,
      upsert_map (fun k => hkey k _) (nodup_firstSeen _), List.map_append, List.map_singleton,
      firstSeen_concat, see]
    by_cases hseen : keyOf x ∈ firstSeen (xs.map keyOf)
    · rw [if_pos hseen, if_pos hseen]
      apply List.map_congr_left
      intro k hk
      by_cases hsame : k = keyOf x
      · have hsome : xs.filter (fun y => decide (keyOf y = keyOf x)) ≠ [] := by
          obtain ⟨y, hy, hkeyY⟩ := List.mem_map.mp (mem_firstSeen.mp hseen)
          exact List.ne_nil_of_mem (List.mem_filter.mpr ⟨hy, decide_eq_true hkeyY⟩)
        rw [hsame, if_pos rfl, hmerge x (keyOf x) _ hsome, hmembers, if_pos rfl]
      · rw [if_neg hsame, hmembers, if_neg fun h => hsame h.symm, List.append_nil]
    · rw [if_neg hseen, if_neg hseen, List.map_append, List.map_singleton]
      congr 1
      · apply List.map_congr_left
        intro k hk
        have hne : ¬ keyOf x = k := fun hsame => hseen (hsame ▸ hk)
        rw [hmembers, if_neg hne, List.append_nil]
      · have hnone : xs.filter (fun y => decide (keyOf y = keyOf x)) = [] := by
          rw [List.filter_eq_nil_iff]
          intro y hy hkeyY
          apply hseen
          rw [mem_firstSeen, ← of_decide_eq_true hkeyY]
          exact List.mem_map_of_mem hy
        rw [hmembers, hnone, if_pos rfl, hfresh]
        rfl

end Rows

end FirstSeen
end LocalDesk
