import Mathlib.Data.List.Nodup
import Mathlib.Data.List.Pairwise
import Mathlib.Order.Lattice

/-!
# 鍵の順に並ぶ写像

`BTreeMap` を、鍵の真に増える組の列として持つ。同じ写像は同じ列になるので、
等しさも反復の順も列のものでよい。
-/

namespace Ordered

variable {K V W : Type} [LinearOrder K]

/-- 鍵の真に増える組の列。 -/
structure SortedMap (K V : Type) [LinearOrder K] where
  entries : List (K × V)
  sorted : entries.Pairwise fun a b => a.1 < b.1
  deriving DecidableEq

namespace SortedMap

/-- 空の写像。 -/
def empty : SortedMap K V := ⟨[], List.Pairwise.nil⟩

instance : Inhabited (SortedMap K V) := ⟨empty⟩

/-- 列の中の正しい位置に置く。同じ鍵の組は置き換える。 -/
def place (key : K) (value : V) : List (K × V) → List (K × V)
  | [] => [(key, value)]
  | (k, v) :: rest =>
    if key < k then (key, value) :: (k, v) :: rest
    else if key = k then (key, value) :: rest
    else (k, v) :: place key value rest

theorem mem_place {key : K} {value : V} {l : List (K × V)} {x : K × V}
    (h : x ∈ place key value l) : x = (key, value) ∨ x ∈ l := by
  induction l with
  | nil => exact Or.inl (List.mem_singleton.mp h)
  | cons e rest ih =>
    unfold place at h
    split at h
    · exact (List.mem_cons.mp h).imp id id
    · split at h
      · exact (List.mem_cons.mp h).imp id (List.mem_cons_of_mem e)
      · rcases List.mem_cons.mp h with rfl | h
        · exact Or.inr List.mem_cons_self
        · exact (ih h).imp id (List.mem_cons_of_mem e)

/-- 置いても、順は保たれる。 -/
theorem sorted_place (key : K) (value : V) {l : List (K × V)}
    (h : l.Pairwise fun a b => a.1 < b.1) :
    (place key value l).Pairwise fun a b => a.1 < b.1 := by
  induction l with
  | nil => exact List.pairwise_singleton _ _
  | cons e rest ih =>
    obtain ⟨hhead, hrest⟩ := List.pairwise_cons.mp h
    unfold place
    split
    · next hlt =>
      refine List.pairwise_cons.mpr ⟨fun x hx => ?_, h⟩
      rcases List.mem_cons.mp hx with rfl | hx
      · exact hlt
      · exact lt_trans hlt (hhead x hx)
    · next hle =>
      split
      · next heq => exact List.pairwise_cons.mpr ⟨heq ▸ hhead, hrest⟩
      · next hne =>
        refine List.pairwise_cons.mpr ⟨fun x hx => ?_, ih hrest⟩
        rcases mem_place hx with rfl | hx
        · exact lt_of_le_of_ne (not_lt.mp hle) (Ne.symm hne)
        · exact hhead x hx

/-- 鍵の値を置く。 -/
def insert (m : SortedMap K V) (key : K) (value : V) : SortedMap K V :=
  ⟨place key value m.entries, sorted_place key value m.sorted⟩

/-- 鍵の値。 -/
def get? (m : SortedMap K V) (key : K) : Option V :=
  (m.entries.find? fun e => e.1 = key).map (·.2)

/-- 値を置き換え、または落とす。 -/
def filterMap (m : SortedMap K V) (f : K → V → Option W) : SortedMap K W where
  entries := m.entries.filterMap fun e => (f e.1 e.2).map (Prod.mk e.1)
  sorted := by
    refine m.sorted.filterMap _ fun a b hlt x hx y hy => ?_
    obtain ⟨_, -, rfl⟩ := Option.map_eq_some_iff.mp hx
    obtain ⟨_, -, rfl⟩ := Option.map_eq_some_iff.mp hy
    exact hlt

/-- 並んだ鍵。 -/
def keys (m : SortedMap K V) : List K := m.entries.map (·.1)

/-! ## 引くこと -/

@[simp] theorem get?_empty (key : K) : (empty : SortedMap K V).get? key = none := rfl

theorem nodup_keys (m : SortedMap K V) : (m.entries.map (·.1)).Nodup := by
  unfold List.Nodup
  rw [List.pairwise_map]
  exact m.sorted.imp ne_of_lt

theorem get?_eq_some {m : SortedMap K V} {key : K} {value : V} :
    m.get? key = some value ↔ (key, value) ∈ m.entries := by
  unfold get?
  constructor
  · intro h
    obtain ⟨e, he, rfl⟩ := Option.map_eq_some_iff.mp h
    have hk : e.1 = key := by simpa using List.find?_some he
    rw [← hk]
    exact List.mem_of_find?_eq_some he
  · intro h
    cases hf : m.entries.find? fun e => e.1 = key with
    | none => exact absurd (decide_eq_true rfl) (List.find?_eq_none.mp hf (key, value) h)
    | some e =>
      have hk : e.1 = key := by simpa using List.find?_some hf
      -- 鍵は重ならないので、同じ鍵の組は一つしかない
      rw [List.inj_on_of_nodup_map m.nodup_keys (List.mem_of_find?_eq_some hf) h hk]
      rfl

theorem find?_place (key k : K) (value : V) (l : List (K × V)) :
    (place key value l).find? (fun e => e.1 = k) =
      if key = k then some (key, value) else l.find? fun e => e.1 = k := by
  induction l with
  | nil => by_cases h : key = k <;> simp [place, h]
  | cons e rest ih =>
    unfold place
    split
    · by_cases h : key = k <;> simp [h, List.find?_cons]
    · split
      · next heq =>
        by_cases h : key = k
        · simp [h]
        · simp [h, show ¬ e.1 = k from heq ▸ h]
      · next hne =>
        rw [List.find?_cons, List.find?_cons, ih]
        by_cases h : key = k
        · simp [h, show ¬ e.1 = k from fun he => hne (h.trans he.symm)]
        · simp [h]

theorem get?_insert (m : SortedMap K V) (key k : K) (value : V) :
    (m.insert key value).get? k = if key = k then some value else m.get? k := by
  unfold get? insert
  rw [find?_place]
  split <;> rfl

theorem get?_filterMap (m : SortedMap K V) (f : K → V → Option W) (key : K) :
    (m.filterMap f).get? key = (m.get? key).bind (f key) := by
  apply Option.ext
  intro w
  rw [get?_eq_some, Option.bind_eq_some_iff]
  constructor
  · intro h
    obtain ⟨e, he, hw⟩ := List.mem_filterMap.mp h
    obtain ⟨w', hw', heq⟩ := Option.map_eq_some_iff.mp hw
    obtain ⟨rfl, rfl⟩ := Prod.mk.inj heq
    exact ⟨e.2, get?_eq_some.mpr he, hw'⟩
  · rintro ⟨v, hv, hw⟩
    exact List.mem_filterMap.mpr ⟨(key, v), get?_eq_some.mp hv, by rw [hw]; rfl⟩

/-- 引いた結果がどの鍵でも同じなら、同じ写像である。 -/
theorem ext_get? {m n : SortedMap K V} (h : ∀ key, m.get? key = n.get? key) : m = n := by
  have hmem : ∀ e, e ∈ m.entries ↔ e ∈ n.entries := fun e => by
    rw [← get?_eq_some (m := m), ← get?_eq_some (m := n), h]
  have hperm : m.entries.Perm n.entries :=
    (List.perm_ext_iff_of_nodup (List.Nodup.of_map _ m.nodup_keys)
      (List.Nodup.of_map _ n.nodup_keys)).mpr hmem
  have heq : m.entries = n.entries :=
    hperm.eq_of_pairwise (fun a b _ _ hab hba => absurd (lt_trans hab hba) (lt_irrefl _))
      m.sorted n.sorted
  cases m
  cases n
  cases heq
  rfl

/-- 組を順に書き込んだ後。鍵が重ならなければ、書き込んだ値が残る。 -/
theorem get?_foldl_insert {g : K × W → V} {l : List (K × W)} (hnodup : (l.map (·.1)).Nodup)
    (m : SortedMap K V) (key : K) :
    (l.foldl (fun acc e => acc.insert e.1 (g e)) m).get? key =
      ((l.find? fun e => e.1 = key).map g).or (m.get? key) := by
  induction l generalizing m with
  | nil => rfl
  | cons e rest ih =>
    obtain ⟨hfresh, hrest⟩ := List.nodup_cons.mp hnodup
    rw [List.foldl_cons, ih hrest, get?_insert, List.find?_cons]
    by_cases hkey : e.1 = key
    · have hnone : rest.find? (fun x => x.1 = key) = none :=
        List.find?_eq_none.mpr fun x hx hk => hfresh <| List.mem_map.mpr
          ⟨x, hx, (of_decide_eq_true hk).trans hkey.symm⟩
      rw [hnone, decide_eq_true hkey, if_pos hkey]
      rfl
    · rw [decide_eq_false hkey, if_neg hkey]

end SortedMap

end Ordered
