import AddressExport.Repeat
import Mathlib.Data.List.Nodup

/-!
# The first repeat, located

`firstRepeat?` finds the end of the longest start of a list without a repeat, and the element that
the one behind it repeats.  So the positions of the two are known from the keys
(`exists_isFirstRepeat`).
-/

namespace AddressExport

variable {α κ : Type}

/-- With `old` seen, `b` stands in `l` behind new elements only, and repeats the old or new element
`a`. -/
def RepeatsFirst (key : α → κ) (old l : List α) (a b : α) : Prop :=
  ∃ new rest, l = new ++ b :: rest ∧ ((old ++ new).map key).Nodup ∧ a ∈ old ++ new ∧ key a = key b

section Step

variable {key : α → κ} {old r : List α} {a b x : α}

theorem repeatsFirst_cons_of_seen (hold : (old.map key).Nodup) {y : α} (hy : y ∈ old)
    (hyx : key y = key x) : RepeatsFirst key old (x :: r) a b ↔ a = y ∧ b = x := by
  constructor
  · rintro ⟨new, rest, hl, hnew, ha, hab⟩
    cases new with
    | nil =>
      obtain ⟨rfl, rfl⟩ := List.cons.inj hl
      rw [List.append_nil] at ha
      exact ⟨List.inj_on_of_nodup_map hold ha hy (hab.trans hyx.symm), rfl⟩
    | cons z new =>
      obtain ⟨rfl, -⟩ := List.cons.inj hl
      rw [List.map_append, List.nodup_append] at hnew
      exact absurd hyx (hnew.2.2 _ (List.mem_map_of_mem hy) _ (by simp))
  · rintro ⟨rfl, rfl⟩
    exact ⟨[], r, rfl, by simpa using hold, by simpa using hy, hyx⟩

theorem repeatsFirst_cons_of_new (hx : key x ∉ old.map key) :
    RepeatsFirst key old (x :: r) a b ↔ RepeatsFirst key (old ++ [x]) r a b := by
  constructor
  · rintro ⟨new, rest, hl, hnew, ha, hab⟩
    cases new with
    | nil =>
      obtain ⟨rfl, rfl⟩ := List.cons.inj hl
      rw [List.append_nil] at ha
      exact absurd (hab ▸ List.mem_map_of_mem ha) hx
    | cons z new =>
      obtain ⟨rfl, rfl⟩ := List.cons.inj hl
      exact ⟨new, rest, rfl, by simpa using hnew, by simpa using ha, hab⟩
  · rintro ⟨new, rest, rfl, hnew, ha, hab⟩
    exact ⟨x :: new, rest, rfl, by simpa using hnew, by simpa using ha, hab⟩

end Step

/-! ## Positions -/

/-- The key at `j` is the first one that came before, and it came at `i` and nowhere else. -/
structure IsFirstRepeat (keys : List κ) (i j : Nat) : Prop where
  lt : i < j
  lt_length : j < keys.length
  repeats : keys[i]? = keys[j]?
  only : ∀ k < j, keys[k]? = keys[j]? → k = i
  first : ∀ k m, k < m → m < j → keys[k]? ≠ keys[m]?

theorem isFirstRepeat_append {front rest : List κ} {k : κ} {i : Nat} (hnodup : front.Nodup)
    (hi : front[i]? = some k) : IsFirstRepeat (front ++ k :: rest) i front.length := by
  obtain ⟨hlt, -⟩ := List.getElem?_eq_some_iff.1 hi
  have hfront {m : Nat} (hm : m < front.length) : (front ++ k :: rest)[m]? = front[m]? :=
    List.getElem?_append_left hm
  have hrepeat : (front ++ k :: rest)[front.length]? = front[i]? := by simp [hi]
  refine ⟨hlt, by simp, ?_, fun m hm heq => ?_, fun m n hmn hn heq => ?_⟩
  · rw [hfront hlt, hrepeat]
  · rw [hfront hm, hrepeat] at heq
    exact (List.getElem?_inj hm hnodup).1 heq
  · have hm : m < front.length := Nat.lt_trans hmn hn
    rw [hfront hm, hfront hn, List.getElem?_inj hm hnodup] at heq
    exact Nat.ne_of_lt hmn heq

/-! ## The search -/

variable [DecidableEq κ]

theorem firstRepeatAfter?_eq_some_iff {key : α → κ} {old l : List α} {a b : α}
    (hold : (old.map key).Nodup) :
    firstRepeatAfter? key (old.map fun x => (key x, x)) l = some (a, b) ↔
      RepeatsFirst key old l a b := by
  induction l generalizing old with
  | nil => simp [firstRepeatAfter?, RepeatsFirst]
  | cons x r ih =>
    simp only [firstRepeatAfter?]
    split
    · next s hs =>
      obtain ⟨y, hy, rfl⟩ := List.mem_map.1 (List.mem_of_find?_eq_some hs)
      have hyx : key y = key x := by simpa using List.find?_some hs
      rw [repeatsFirst_cons_of_seen hold hy hyx, Option.some.injEq, Prod.mk.injEq, eq_comm,
        @eq_comm _ x]
    · next hs =>
      have hx : key x ∉ old.map key := by simpa using hs
      have hold' : ((old ++ [x]).map key).Nodup := by
        rw [List.map_append, List.map_singleton, ← List.concat_eq_append]
        exact hold.concat hx
      have hrest := ih hold'
      rw [List.map_append, List.map_singleton] at hrest
      rw [hrest, repeatsFirst_cons_of_new hx]

/-- The first repeat stands behind distinct elements and repeats one of them. -/
theorem firstRepeat?_eq_some_iff {key : α → κ} {l : List α} {a b : α} :
    firstRepeat? key l = some (a, b) ↔
      ∃ before after, l = before ++ b :: after ∧ (before.map key).Nodup ∧ a ∈ before ∧
        key a = key b := by
  have h := @firstRepeatAfter?_eq_some_iff α κ _ key [] l a b List.nodup_nil
  simpa [firstRepeat?, RepeatsFirst] using h

theorem exists_isFirstRepeat {key : α → κ} {l : List α} {a b : α}
    (h : firstRepeat? key l = some (a, b)) :
    ∃ i j, l[i]? = some a ∧ l[j]? = some b ∧ IsFirstRepeat (l.map key) i j := by
  obtain ⟨before, after, rfl, hnodup, ha, hab⟩ := firstRepeat?_eq_some_iff.1 h
  obtain ⟨i, hi⟩ := List.mem_iff_getElem?.1 ha
  obtain ⟨hlt, -⟩ := List.getElem?_eq_some_iff.1 hi
  refine ⟨i, before.length, ?_, by simp, ?_⟩
  · rw [List.getElem?_append_left hlt, hi]
  · have hkey : (before.map key)[i]? = some (key b) := by
      rw [List.getElem?_map, hi, ← hab, Option.map_some]
    have hrepeat : IsFirstRepeat (before.map key ++ key b :: after.map key) i
        (before.map key).length :=
      isFirstRepeat_append hnodup hkey
    rwa [List.length_map, ← List.map_cons, ← List.map_append] at hrepeat

end AddressExport
