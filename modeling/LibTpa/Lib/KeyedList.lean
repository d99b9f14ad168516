/- LibTpa/Lib/KeyedList
   digest: Lists searched by a key: what appending and overwriting an entry does to a search. -/

import Mathlib.Data.List.Nodup

set_option autoImplicit false

namespace LibTpa.Lib.KeyedList

variable {α κ : Type*} [DecidableEq κ] {key : α → κ} {t : List α} {a e : α} {k : κ} {i : Nat}

def index (key : α → κ) (t : List α) (k : κ) : Option Nat :=
  t.findIdx? (fun e => decide (key e = k))

def find (key : α → κ) (t : List α) (k : κ) : Option α := t.find? (fun e => decide (key e = k))

theorem index_eq_none : index key t k = none ↔ k ∉ t.map key := by
  unfold index
  rw [List.findIdx?_eq_none_iff, List.mem_map]
  constructor
  · rintro h ⟨e, he, hk⟩
    simpa [hk] using h e he
  · intro h e he
    simpa using fun hk => h ⟨e, he, hk⟩

theorem index_eq_some (h : index key t k = some i) :
    ∃ e, t[i]? = some e ∧ key e = k ∧ find key t k = some e := by
  unfold index at h
  obtain ⟨hi, hk, hbefore⟩ := List.findIdx?_eq_some_iff_getElem.1 h
  refine ⟨t[i], List.getElem?_eq_getElem hi, of_decide_eq_true hk, ?_⟩
  unfold find
  rw [List.find?_eq_some_iff_getElem]
  refine ⟨hk, i, hi, rfl, ?_⟩
  intro j hj
  simpa using hbefore j hj

theorem find_eq_none : find key t k = none ↔ k ∉ t.map key := by
  unfold find
  rw [List.find?_eq_none, List.mem_map]
  constructor
  · rintro h ⟨e, he, hk⟩
    exact h e he (decide_eq_true hk)
  · intro h e he hk
    exact h ⟨e, he, of_decide_eq_true hk⟩

theorem find_eq_some (hd : (t.map key).Nodup) : find key t k = some e ↔ e ∈ t ∧ key e = k := by
  have hkey : ∀ a, find key t k = some a → a ∈ t ∧ key a = k := by
    intro a h
    unfold find at h
    have hk := List.find?_some h
    exact ⟨List.mem_of_find?_eq_some h, of_decide_eq_true hk⟩
  refine ⟨hkey e, ?_⟩
  rintro ⟨he, hk⟩
  cases hf : find key t k with
  | none => exact absurd (List.mem_map.2 ⟨e, he, hk⟩) (find_eq_none.1 hf)
  | some a =>
    obtain ⟨ha, hka⟩ := hkey a hf
    rw [List.inj_on_of_nodup_map hd ha he (hka.trans hk.symm)]

omit [DecidableEq κ] in
theorem nodup_append (hd : (t.map key).Nodup) (ha : key a ∉ t.map key) :
    ((t ++ [a]).map key).Nodup := by
  rw [List.map_append, List.map_singleton, ← List.concat_eq_append]
  exact hd.concat ha

theorem find_append_self (ha : key a ∉ t.map key) : find key (t ++ [a]) (key a) = some a := by
  have hnone : t.find? (fun e => decide (key e = key a)) = none := find_eq_none.2 ha
  unfold find
  rw [List.find?_append, hnone]
  simp

theorem find_append_of_ne (hk : k ≠ key a) : find key (t ++ [a]) k = find key t k := by
  unfold find
  rw [List.find?_append, List.find?_singleton, if_neg (by simpa using hk.symm), Option.or_none]

omit [DecidableEq κ] in
theorem mem_set_iff (hd : (t.map key).Nodup) {old : α} (hi : t[i]? = some old) :
    e ∈ t.set i a ↔ e = a ∨ (e ∈ t ∧ key e ≠ key old) := by
  obtain ⟨hlt, -⟩ := List.getElem?_eq_some_iff.1 hi
  rw [List.mem_iff_getElem?]
  constructor
  · rintro ⟨j, hj⟩
    rw [List.getElem?_set] at hj
    by_cases hij : i = j
    · rw [if_pos hij, if_pos (hij ▸ hlt)] at hj
      exact .inl (Option.some.inj hj).symm
    · rw [if_neg hij] at hj
      refine .inr ⟨List.mem_of_getElem? hj, fun hk => hij ?_⟩
      apply (List.getElem?_inj (by rw [List.length_map]; exact hlt) hd).1
      rw [List.getElem?_map, List.getElem?_map, hi, hj, Option.map_some, Option.map_some, hk]
  · rintro (rfl | ⟨he, hk⟩)
    · exact ⟨i, by rw [List.getElem?_set_self hlt]⟩
    · obtain ⟨j, hj⟩ := List.mem_iff_getElem?.1 he
      refine ⟨j, ?_⟩
      rw [List.getElem?_set_ne, hj]
      rintro rfl
      rw [hi] at hj
      exact hk (congrArg key (Option.some.inj hj).symm)

omit [DecidableEq κ] in
theorem nodup_set (hd : (t.map key).Nodup) {old : α} (hi : t[i]? = some old)
    (ha : key a ∉ t.map key ∨ key a = key old) : ((t.set i a).map key).Nodup := by
  rw [List.map_set]
  rcases ha with ha | ha
  · exact hd.set ha
  · have hget : (t.map key)[i]? = some (key a) := by rw [List.getElem?_map, hi, Option.map_some, ha]
    obtain ⟨hlt, heq⟩ := List.getElem?_eq_some_iff.1 hget
    rw [← heq, List.set_getElem_self]
    exact hd

theorem find_set_self (hd : (t.map key).Nodup) {old : α} (hi : t[i]? = some old)
    (ha : key a ∉ t.map key ∨ key a = key old) : find key (t.set i a) (key a) = some a :=
  (find_eq_some (nodup_set hd hi ha)).2 ⟨(mem_set_iff hd hi).2 (.inl rfl), rfl⟩

theorem find_set_of_ne (hd : (t.map key).Nodup) {old : α} (hi : t[i]? = some old)
    (ha : key a ∉ t.map key ∨ key a = key old) (hk : k ≠ key a) :
    find key (t.set i a) k = if k = key old then none else find key t k := by
  ext e
  rw [find_eq_some (nodup_set hd hi ha), mem_set_iff hd hi]
  split
  · rename_i hold
    constructor
    · rintro ⟨rfl | ⟨-, hne⟩, heq⟩
      · exact absurd heq.symm hk
      · exact absurd (heq.trans hold) hne
    · intro h
      exact absurd h (Option.some_ne_none e).symm
  · rename_i hold
    rw [find_eq_some hd]
    constructor
    · rintro ⟨rfl | ⟨he, -⟩, heq⟩
      · exact absurd heq.symm hk
      · exact ⟨he, heq⟩
    · rintro ⟨he, heq⟩
      exact ⟨.inr ⟨he, fun h => hold (heq.symm.trans h)⟩, heq⟩

end LibTpa.Lib.KeyedList
