import Mathlib.Data.List.Nodup

/-!
# Lists with keys

`put` replaces the entry that has the key, where it is, or appends a new one.

* `foldl_put`: entries with keys of their own are appended, all of them.
* `mem_put_of_ne`: the entries with other keys stay.
* `mem_keys_put`: the keys are those from before and that of the entry.
-/

namespace Upsert

open List

variable {α κ : Type*} [DecidableEq κ]

def put (key : α → κ) (l : List α) (u : α) : List α :=
  if l.any fun e => key e = key u then l.set (l.findIdx fun e => key e = key u) u else l ++ [u]

variable {key : α → κ} {l us : List α} {u : α}

theorem put_of_new (h : key u ∉ l.map key) : put key l u = l ++ [u] := by
  refine if_neg fun hany => h ?_
  obtain ⟨e, he, hkey⟩ := any_eq_true.mp hany
  rw [← of_decide_eq_true hkey]
  exact mem_map_of_mem he

theorem foldl_put (h : ((l ++ us).map key).Nodup) : us.foldl (put key) l = l ++ us := by
  induction us generalizing l with
  | nil => exact (append_nil l).symm
  | cons u us ih =>
    have hnew : key u ∉ l.map key := by
      intro hmem
      rw [map_append, map_cons] at h
      exact (nodup_append.mp h).2.2 _ hmem _ mem_cons_self rfl
    have happend : l ++ u :: us = l ++ [u] ++ us := append_cons l u us
    rw [foldl_cons, put_of_new hnew, ih (happend ▸ h), happend]

theorem findIdx_lt (h : (l.any fun e => key e = key u) = true) :
    (l.findIdx fun e => key e = key u) < l.length :=
  findIdx_lt_length.mpr (any_eq_true.mp h)

theorem mem_put_of_ne {e : α} (he : e ∈ l) (hne : key e ≠ key u) : e ∈ put key l u := by
  unfold put
  split
  next hany =>
    obtain ⟨j, hj, rfl⟩ := getElem_of_mem he
    have hlt : (l.findIdx fun e => key e = key u) < l.length := findIdx_lt hany
    have hidx : key l[l.findIdx fun e => key e = key u] = key u :=
      of_decide_eq_true (findIdx_getElem (w := hlt))
    have hother : (l.findIdx fun e => key e = key u) ≠ j := by
      rintro rfl
      exact hne hidx
    refine mem_iff_getElem.mpr ⟨j, by rwa [length_set], ?_⟩
    exact getElem_set_ne hother _
  · exact mem_append_left _ he

theorem mem_keys_put (key : α → κ) {l : List α} {u : α} {k : κ} :
    k ∈ (put key l u).map key ↔ k = key u ∨ k ∈ l.map key := by
  constructor
  · intro hk
    obtain ⟨e, he, rfl⟩ := mem_map.mp hk
    unfold put at he
    split at he
    · rcases mem_or_eq_of_mem_set he with he | rfl
      · exact .inr (mem_map_of_mem he)
      · exact .inl rfl
    · rcases mem_append.mp he with he | he
      · exact .inr (mem_map_of_mem he)
      · exact .inl (by rw [mem_singleton.mp he])
  · intro hk
    have hown : key u ∈ (put key l u).map key := by
      refine mem_map_of_mem ?_
      unfold put
      split
      next hany => exact mem_set (findIdx_lt hany) u
      · exact mem_append_right _ (mem_singleton.mpr rfl)
    by_cases hsame : k = key u
    · rwa [hsame]
    · obtain ⟨e, he, rfl⟩ := mem_map.mp (hk.resolve_left hsame)
      exact mem_map_of_mem (mem_put_of_ne he hsame)

end Upsert
