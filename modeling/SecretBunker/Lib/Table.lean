import Mathlib.Data.List.Sort
import Mathlib.Data.List.Nodup
import Mathlib.Data.List.Pairwise
import Mathlib.Data.String.Basic

/-!
# 一意制約を持つ表

SQL の表を、互いに衝突しない行の列として持つ。
PRIMARY KEY と UNIQUE は「同時に存在できない二行」の関係 `Row.Conflict` で与え、
表の型がそれを field として運ぶ。行の順序は意味を持たず、
ORDER BY のある問い合わせは `sortOn` を通す。
-/

namespace Relational

/-- 同時に存在できない二行を決める。PRIMARY KEY と UNIQUE をまとめたもの。 -/
class Row (R : Type) where
  Conflict : R → R → Prop
  decConflict : DecidableRel Conflict
  refl : ∀ a, Conflict a a
  symm : ∀ a b, Conflict a b → Conflict b a

instance {R : Type} [Row R] : DecidableRel (Row.Conflict : R → R → Prop) := Row.decConflict

/-- 衝突しない行の列。 -/
structure Table (R : Type) [Row R] where
  rows : List R
  unique : rows.Pairwise (fun a b => ¬ Row.Conflict a b)

namespace Table

variable {R S K : Type} [Row R] [Row S]

instance : Membership R (Table R) := ⟨fun t r => r ∈ t.rows⟩

variable {t t' : Table R} {r x : R} {f : R → K} {p : R → Bool} {u : Table S} {g : S → K}

theorem mem_def : r ∈ t ↔ r ∈ t.rows := Iff.rfl

instance [DecidableEq R] (t : Table R) (r : R) : Decidable (r ∈ t) :=
  inferInstanceAs (Decidable (r ∈ t.rows))

instance decidableExists (t : Table R) (p : R → Prop) [DecidablePred p] :
    Decidable (∃ r ∈ t, p r) :=
  inferInstanceAs (Decidable (∃ r ∈ t.rows, p r))

instance decidableForall (t : Table R) (p : R → Prop) [DecidablePred p] :
    Decidable (∀ r ∈ t, p r) :=
  inferInstanceAs (Decidable (∀ r ∈ t.rows, p r))

/-- 衝突する二行は同じ行である。 -/
theorem eq_of_conflict {a b : R} (ha : a ∈ t) (hb : b ∈ t) (h : Row.Conflict a b) : a = b := by
  by_contra hne
  have hsymm : Std.Symm (fun a b : R => ¬ Row.Conflict a b) :=
    ⟨fun x y hxy hyx => hxy (Row.symm _ _ hyx)⟩
  exact (t.unique.forall ha hb hne) h

theorem nodup (t : Table R) : t.rows.Nodup := by
  refine t.unique.imp ?_
  intro a b h he
  exact h (he ▸ Row.refl a)

/-- 一意な列の値は重ならない。 -/
theorem map_nodup (hf : ∀ a b, f a = f b → Row.Conflict a b) (t : Table R) :
    (t.rows.map f).Nodup := by
  unfold List.Nodup
  rw [List.pairwise_map]
  exact t.unique.imp fun hne he => hne (hf _ _ he)

/-- 条件を満たす行の中で一意な列の値は重ならない。 -/
theorem map_filter_nodup
    (hf : ∀ a b, p a = true → p b = true → f a = f b → Row.Conflict a b) (t : Table R) :
    ((t.rows.filter p).map f).Nodup := by
  unfold List.Nodup
  rw [List.pairwise_map]
  refine (t.unique.filter p).imp_of_mem ?_
  intro a b ha hb hne he
  exact hne (hf a b (List.mem_filter.mp ha).2 (List.mem_filter.mp hb).2 he)

/-! ## 文 -/

/-- 空の表。 -/
def empty : Table R := ⟨[], List.Pairwise.nil⟩

/-- 一行だけの表。 -/
def singleton (r : R) : Table R := ⟨[r], List.pairwise_singleton _ _⟩

/-- INSERT。衝突する行があれば制約違反で失敗する。 -/
def insert (t : Table R) (r : R) : Option (Table R) :=
  if h : ∀ x ∈ t.rows, ¬ Row.Conflict x r then
    some ⟨t.rows ++ [r], by
      rw [List.pairwise_append]
      refine ⟨t.unique, List.pairwise_singleton _ _, ?_⟩
      intro a ha b hb
      rw [List.mem_singleton.mp hb]
      exact h a ha⟩
  else none

/-- INSERT … ON CONFLICT DO NOTHING。 -/
def insertOrIgnore (t : Table R) (r : R) : Table R := (t.insert r).getD t

/-- INSERT … ON CONFLICT DO UPDATE。衝突の種類が一つの表で、行をまるごと置き換える。 -/
def upsert (t : Table R) (r : R) : Table R where
  rows := t.rows.filter (fun x => ¬ Row.Conflict x r) ++ [r]
  unique := by
    rw [List.pairwise_append]
    refine ⟨t.unique.filter _, List.pairwise_singleton _ _, ?_⟩
    intro a ha b hb
    rw [List.mem_singleton.mp hb]
    simpa using (List.mem_filter.mp ha).2

/-- DELETE。 -/
def delete (t : Table R) (p : R → Bool) : Table R where
  rows := t.rows.filter (fun x => !p x)
  unique := t.unique.filter _

/-- UPDATE。一意制約に触れない列だけを書き換える。 -/
def update (t : Table R) (f : R → R) (hf : ∀ a b, Row.Conflict (f a) (f b) → Row.Conflict a b) :
    Table R where
  rows := t.rows.map f
  unique := by
    rw [List.pairwise_map]
    exact t.unique.imp fun h hc => h (hf _ _ hc)

/-- UPDATE。一意制約のある列を書き換え、衝突すれば失敗する。 -/
def modify (t : Table R) (f : R → R) : Option (Table R) :=
  if h : (t.rows.map f).Pairwise (fun a b => ¬ Row.Conflict a b) then some ⟨t.rows.map f, h⟩
  else none

/-! ## 文の後の行 -/

@[simp] theorem mem_empty : ¬ r ∈ (empty : Table R) := List.not_mem_nil

theorem insert_eq_some_iff :
    t.insert r = some t' ↔ (∀ x ∈ t, ¬ Row.Conflict x r) ∧ t'.rows = t.rows ++ [r] := by
  unfold insert
  split
  · next h =>
    rw [Option.some.injEq]
    constructor
    · intro he
      exact ⟨h, by rw [← he]⟩
    · intro ⟨_, he⟩
      cases t'
      simp_all
  · next h =>
    constructor
    · intro he
      cases he
    · intro ⟨h', _⟩
      exact absurd h' h

theorem mem_insert (h : t.insert r = some t') : x ∈ t' ↔ x ∈ t ∨ x = r := by
  rw [mem_def, (insert_eq_some_iff.mp h).2]
  simp [mem_def]

theorem insert_isSome (h : ∀ x ∈ t, ¬ Row.Conflict x r) : ∃ t', t.insert r = some t' := by
  refine ⟨⟨t.rows ++ [r], ?_⟩, insert_eq_some_iff.mpr ⟨h, rfl⟩⟩
  rw [List.pairwise_append]
  refine ⟨t.unique, List.pairwise_singleton _ _, ?_⟩
  intro a ha b hb
  rw [List.mem_singleton.mp hb]
  exact h a ha

theorem insert_eq_none (hx : x ∈ t) (h : Row.Conflict x r) : t.insert r = none := by
  unfold insert
  exact dif_neg fun hall => hall x hx h

theorem insertOrIgnore_eq_self {y : R} (hy : y ∈ t) (hc : Row.Conflict y r) :
    t.insertOrIgnore r = t := by
  rw [insertOrIgnore, insert_eq_none hy hc, Option.getD_none]

theorem mem_insertOrIgnore :
    x ∈ t.insertOrIgnore r ↔ x ∈ t ∨ (x = r ∧ ∀ y ∈ t, ¬ Row.Conflict y r) := by
  unfold insertOrIgnore
  by_cases h : ∀ y ∈ t, ¬ Row.Conflict y r
  · obtain ⟨t', ht'⟩ := insert_isSome h
    rw [ht', Option.getD_some, mem_insert ht']
    exact or_congr_right (and_iff_left h).symm
  · obtain ⟨y, hy, hc⟩ : ∃ y ∈ t, Row.Conflict y r := by
      by_contra hn
      exact h fun y hy hc => hn ⟨y, hy, hc⟩
    rw [insert_eq_none hy hc, Option.getD_none]
    constructor
    · exact Or.inl
    · rintro (hx | ⟨_, hall⟩)
      · exact hx
      · exact absurd hall h

@[simp] theorem mem_upsert : x ∈ t.upsert r ↔ (x ∈ t ∧ ¬ Row.Conflict x r) ∨ x = r := by
  simp [mem_def, upsert]

/-- 互いに衝突しない行を順に upsert すると、衝突した古い行だけが置き換わる。 -/
theorem mem_foldl_upsert {α : Type} {f : α → R} {l : List α}
    (hl : l.Pairwise fun a b => ¬ Row.Conflict (f a) (f b)) :
    x ∈ l.foldl (fun t a => t.upsert (f a)) t ↔
      (x ∈ t ∧ ∀ a ∈ l, ¬ Row.Conflict x (f a)) ∨ ∃ a ∈ l, x = f a := by
  induction l generalizing t with
  | nil => simp
  | cons a rest ih =>
    rw [List.pairwise_cons] at hl
    rw [List.foldl_cons, ih hl.2, mem_upsert]
    simp only [List.forall_mem_cons, List.exists_mem_cons_iff]
    constructor
    · rintro (⟨⟨hx, ha⟩ | rfl, hrest⟩ | hrest)
      · exact Or.inl ⟨hx, ha, hrest⟩
      · exact Or.inr (Or.inl rfl)
      · exact Or.inr (Or.inr hrest)
    · rintro (⟨hx, ha, hrest⟩ | rfl | hrest)
      · exact Or.inl ⟨Or.inl ⟨hx, ha⟩, hrest⟩
      · exact Or.inl ⟨Or.inr rfl, hl.1⟩
      · exact Or.inr hrest

@[simp] theorem mem_delete : x ∈ t.delete p ↔ x ∈ t ∧ p x = false := by
  simp [mem_def, delete]

@[simp] theorem mem_update {f : R → R} {hf : ∀ a b, Row.Conflict (f a) (f b) → Row.Conflict a b} :
    x ∈ t.update f hf ↔ ∃ y ∈ t, f y = x := by
  simp [mem_def, update]

theorem mem_modify {f : R → R} (h : t.modify f = some t') : x ∈ t' ↔ ∃ y ∈ t, f y = x := by
  unfold modify at h
  split at h
  · rw [← Option.some.inj h]
    simp [mem_def]
  · cases h

theorem modify_isSome {f : R → R} (h : ∀ a ∈ t, ∀ b ∈ t, Row.Conflict (f a) (f b) → a = b) :
    ∃ t', t.modify f = some t' := by
  have hp : (t.rows.map f).Pairwise (fun a b => ¬ Row.Conflict a b) := by
    rw [List.pairwise_map]
    refine t.unique.imp_of_mem ?_
    intro a b ha hb hab hc
    exact hab (h a ha b hb hc ▸ Row.refl a)
  exact ⟨_, dif_pos hp⟩

/-! ## 検索 -/

/-- 条件に合う行を一つ返す。一意な列で引くときに使う。 -/
def find? (t : Table R) (p : R → Bool) : Option R := t.rows.find? p

theorem mem_of_find? (h : t.find? p = some r) : r ∈ t ∧ p r = true :=
  ⟨List.mem_of_find?_eq_some h, List.find?_some h⟩

theorem find?_eq_none : t.find? p = none ↔ ∀ r ∈ t, p r = false := by
  unfold find?
  rw [List.find?_eq_none]
  simp [mem_def]

/-- 条件が一意な列を決めているなら、合う行が検索の答えである。 -/
theorem find?_eq_some (hp : ∀ a b, p a = true → p b = true → Row.Conflict a b) :
    t.find? p = some r ↔ r ∈ t ∧ p r = true := by
  constructor
  · exact mem_of_find?
  · rintro ⟨hr, hpr⟩
    cases hf : t.find? p with
    | none => rw [find?_eq_none.mp hf r hr] at hpr; cases hpr
    | some r' =>
      obtain ⟨hr', hpr'⟩ := mem_of_find? hf
      rw [eq_of_conflict hr' hr (hp _ _ hpr' hpr)]

theorem find?_insert (h : t.insert r = some t') (p : R → Bool) :
    t'.find? p = (t.find? p).or (if p r then some r else none) := by
  unfold find?
  rw [(insert_eq_some_iff.mp h).2, List.find?_append]
  cases hp : p r <;> simp [hp]

theorem find?_update {f : R → R} {hf : ∀ a b, Row.Conflict (f a) (f b) → Row.Conflict a b}
    (hp : ∀ r, p (f r) = p r) : (t.update f hf).find? p = (t.find? p).map f := by
  unfold find? update
  rw [List.find?_map]
  congr 2
  exact funext hp

/-! ## 外部キー -/

/-- `t` の列 `f` が `u` の列 `g` を参照している。 -/
def References (t : Table R) (f : R → K) (u : Table S) (g : S → K) : Prop :=
  ∀ r ∈ t, ∃ s ∈ u, g s = f r

theorem References.mono {u' : Table S} (h : References t f u g) (ht : ∀ r ∈ t', r ∈ t)
    (hu : ∀ s ∈ u, ∃ s' ∈ u', g s' = g s) : References t' f u' g := by
  intro r hr
  obtain ⟨s, hs, hgs⟩ := h r (ht r hr)
  obtain ⟨s', hs', hgs'⟩ := hu s hs
  exact ⟨s', hs', hgs'.trans hgs⟩

theorem References.empty : References (Table.empty : Table R) f u g :=
  fun _ hr => absurd hr mem_empty

/-- 行を足しても、足した行の参照先があれば参照は保たれる。 -/
theorem References.add (h : References t f u g) (ht : ∀ r ∈ t', r ∈ t ∨ r = x)
    (hx : ∃ s ∈ u, g s = f x) : References t' f u g := by
  intro r hr
  rcases ht r hr with hr | rfl
  · exact h r hr
  · exact hx

/-- ON DELETE CASCADE。親の行を消すときに子の行も消す。 -/
def cascade [DecidableEq K] (t : Table R) (f : R → K) (u : Table S) (g : S → K) (p : S → Bool) :
    Table R :=
  t.delete (fun r => u.rows.any (fun s => p s && decide (g s = f r)))

theorem mem_cascade [DecidableEq K] {p : S → Bool} :
    r ∈ t.cascade f u g p ↔ r ∈ t ∧ ∀ s ∈ u, g s = f r → p s = false := by
  unfold cascade
  rw [mem_delete, List.any_eq_false]
  simp only [Bool.and_eq_true, decide_eq_true_eq, not_and, mem_def]
  constructor
  · rintro ⟨hr, h⟩
    exact ⟨hr, fun s hs hg => by simpa using fun hp => h s hs hp hg⟩
  · rintro ⟨hr, h⟩
    exact ⟨hr, fun s hs hp hg => by rw [h s hs hg] at hp; cases hp⟩

theorem References.cascade [DecidableEq K] (h : References t f u g) (p : S → Bool) :
    References (t.cascade f u g p) f (u.delete p) g := by
  intro r hr
  obtain ⟨hr, hp⟩ := mem_cascade.mp hr
  obtain ⟨s, hs, hgs⟩ := h r hr
  exact ⟨s, mem_delete.mpr ⟨hs, hp s hs hgs⟩, hgs⟩

end Table

/-! ## rowid -/

/-- 自動採番の rowid。いまある最大の次。 -/
def nextRowid (ids : List Nat) : Nat := ids.foldr max 0 + 1

theorem le_foldr_max {ids : List Nat} {i : Nat} (h : i ∈ ids) : i ≤ ids.foldr max 0 := by
  induction ids with
  | nil => cases h
  | cons a rest ih =>
    rw [List.foldr_cons]
    rcases List.mem_cons.mp h with rfl | h
    · exact Nat.le_max_left _ _
    · exact (ih h).trans (Nat.le_max_right _ _)

theorem lt_nextRowid {ids : List Nat} {i : Nat} (h : i ∈ ids) : i < nextRowid ids :=
  Nat.lt_succ_of_le (le_foldr_max h)

/-- 採番した rowid はまだ使われていない。 -/
theorem nextRowid_not_mem (ids : List Nat) : nextRowid ids ∉ ids :=
  fun h => Nat.lt_irrefl _ (lt_nextRowid h)

/-! ## ORDER BY -/

section SortOn

variable {α K : Type} [LinearOrder K]

/-- ORDER BY。 -/
def sortOn (f : α → K) (l : List α) : List α := l.insertionSort (fun a b => f a ≤ f b)

variable {l : List α}

@[simp] theorem mem_sortOn {f : α → K} {x : α} : x ∈ sortOn f l ↔ x ∈ l :=
  List.mem_insertionSort _

theorem perm_sortOn (f : α → K) (l : List α) : (sortOn f l).Perm l := List.perm_insertionSort _ _

theorem sorted_sortOn (f : α → K) (l : List α) :
    (sortOn f l).Pairwise (fun a b => f a ≤ f b) := by
  have : Std.Total (fun a b : α => f a ≤ f b) := ⟨fun a b => le_total (f a) (f b)⟩
  have : IsTrans α (fun a b : α => f a ≤ f b) := ⟨fun _ _ _ => le_trans⟩
  exact List.pairwise_insertionSort _ l

/-- 整列は安定で、鍵の同じ行の順序を変えない。 -/
theorem filter_sortOn (f : α → K) (l : List α) (k : K) :
    (sortOn f l).filter (fun a => f a = k) = l.filter fun a => f a = k := by
  have hsub : (l.filter fun a => f a = k).Sublist (sortOn f l) := by
    refine List.sublist_insertionSort ?_ List.filter_sublist
    refine List.pairwise_of_forall_mem_list fun a ha b hb => ?_
    exact (of_decide_eq_true (List.mem_filter.mp ha).2).trans_le
      (of_decide_eq_true (List.mem_filter.mp hb).2).ge
  have hfilter := hsub.filter fun a => f a = k
  rw [List.filter_filter] at hfilter
  simp only [Bool.and_self] at hfilter
  exact (hfilter.eq_of_length ((perm_sortOn f l).filter _).length_eq.symm).symm

/-- 鍵が一意なら、整列した列は行の集まりだけで決まる。 -/
theorem sortOn_congr {f : α → K} {l' : List α} (hl : ((sortOn f l).map f).Nodup)
    (hl' : ((sortOn f l').map f).Nodup) (h : ∀ x, x ∈ sortOn f l ↔ x ∈ sortOn f l') :
    sortOn f l = sortOn f l' := by
  have hperm : (sortOn f l).Perm (sortOn f l') :=
    (List.perm_ext_iff_of_nodup hl.of_map hl'.of_map).mpr h
  refine hperm.eq_of_pairwise ?_ (sorted_sortOn f l) (sorted_sortOn f l')
  intro a b ha hb hab hba
  exact List.inj_on_of_nodup_map hl ha ((h b).mpr hb) (le_antisymm hab hba)

theorem sortOn_map_nodup {f : α → K} (h : (l.map f).Nodup) : ((sortOn f l).map f).Nodup :=
  ((perm_sortOn f l).map f).nodup_iff.mpr h

omit [LinearOrder K] in
/-- 鍵の一意な列を `filterMap` で間引いても、鍵は一意である。 -/
theorem nodup_filterMap_key {β : Type} {f : α → Option β} {k : β → K} {g : α → K}
    (h : ∀ a b, f a = some b → k b = g a) (hl : (l.map g).Nodup) :
    ((l.filterMap f).map k).Nodup := by
  refine hl.sublist ?_
  clear hl
  induction l with
  | nil => exact List.Sublist.slnil
  | cons a rest ih =>
    rw [List.map_cons]
    cases ha : f a with
    | none =>
      rw [List.filterMap_cons_none ha]
      exact ih.cons _
    | some b =>
      rw [List.filterMap_cons_some ha, List.map_cons, h a b ha]
      exact ih.cons_cons _

end SortOn

/-! ## 失敗しうる走査 -/

section MapM

variable {α β K : Type} {f : α → Option β} {l : List α}

/-- `mapM` が成功したなら、答えは元の列と一つずつ対応している。 -/
theorem forall₂_of_mapM {r : List β} (h : l.mapM f = some r) :
    List.Forall₂ (fun a b => f a = some b) l r := by
  induction l generalizing r with
  | nil =>
    cases h
    exact List.Forall₂.nil
  | cons a rest ih =>
    rw [List.mapM_cons] at h
    obtain ⟨b, hb, h⟩ := Option.bind_eq_some_iff.mp h
    obtain ⟨bs, hbs, h⟩ := Option.bind_eq_some_iff.mp h
    cases h
    exact List.Forall₂.cons hb (ih hbs)

theorem mem_of_mapM {r : List β} (h : l.mapM f = some r) {b : β} :
    b ∈ r ↔ ∃ a ∈ l, f a = some b := by
  have h₂ := forall₂_of_mapM h
  clear h
  induction h₂ with
  | nil => simp
  | cons hab _ ih =>
    rw [List.mem_cons, List.exists_mem_cons_iff, hab, Option.some.injEq, eq_comm]
    exact or_congr_right ih

/-- 一つでも失敗すれば全体が失敗し、ほかに失敗するところは無い。 -/
theorem mapM_isSome_iff : (l.mapM f).isSome ↔ ∀ a ∈ l, (f a).isSome := by
  induction l with
  | nil => simp
  | cons a rest ih =>
    rw [List.mapM_cons, List.forall_mem_cons, ← ih]
    cases f a with
    | none => simp
    | some b => cases rest.mapM f <;> simp

/-- 要素ごとに保たれる鍵は、列としても保たれる。 -/
theorem map_of_mapM {r : List β} {k : β → K} {g : α → K} (hk : ∀ a b, f a = some b → k b = g a)
    (h : l.mapM f = some r) : r.map k = l.map g := by
  have h₂ := forall₂_of_mapM h
  clear h
  induction h₂ with
  | nil => rfl
  | cons hab _ ih => rw [List.map_cons, List.map_cons, hk _ _ hab, ih]

end MapM

/-! ## 二つの計算の並び -/

section Rel

variable {α α' β β' γ : Type}

/-- 二つの計算がともに失敗するか、ともに成功して関係を保つことは、続けても成り立つ。 -/
theorem rel_bind {R : α → α' → Prop} {S : β → β' → Prop} {x : Option α} {y : Option α'}
    {f : α → Option β} {g : α' → Option β'} (hxy : Option.Rel R x y)
    (hfg : ∀ a b, R a b → Option.Rel S (f a) (g b)) : Option.Rel S (x.bind f) (y.bind g) := by
  cases hxy with
  | none => exact .none
  | some hab => exact hfg _ _ hab

theorem rel_cases {R : α → β → Prop} {x : Option α} {y : Option β} (h : Option.Rel R x y) :
    x = none ∧ y = none ∨ ∃ a b, x = some a ∧ y = some b ∧ R a b := by
  cases h with
  | none => exact Or.inl ⟨rfl, rfl⟩
  | some hab => exact Or.inr ⟨_, _, rfl, rfl, hab⟩

theorem rel_foldlM {R : α → β → Prop} {f : α → γ → Option α} {g : β → γ → Option β}
    (h : ∀ a b c, R a b → Option.Rel R (f a c) (g b c)) (l : List γ) {a : α} {b : β}
    (hab : R a b) : Option.Rel R (l.foldlM f a) (l.foldlM g b) := by
  induction l generalizing a b with
  | nil => exact .some hab
  | cons c rest ih =>
    rw [List.foldlM_cons, List.foldlM_cons]
    exact rel_bind (h a b c hab) fun _ _ hab' => ih hab'

/-- どの一歩でも変わらない値は、畳み込みの後も変わらない。 -/
theorem keeps_foldlM {f : α → γ → Option α} (k : α → β) (h : ∀ a b c, f a c = some b → k b = k a)
    {l : List γ} {a b : α} (hl : l.foldlM f a = some b) : k b = k a := by
  induction l generalizing a with
  | nil => cases hl; rfl
  | cons c rest ih =>
    rw [List.foldlM_cons] at hl
    obtain ⟨mid, hmid, hrest⟩ := Option.bind_eq_some_iff.mp hl
    exact (ih hrest).trans (h a mid c hmid)

end Rel

end Relational
