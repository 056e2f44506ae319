import Mathlib.Data.List.Destutter
import Mathlib.Order.Lattice

/-!
# 途中で止まる繰り返し

失敗しうる試みを順に行い、値を貯めていく繰り返しを、止まらない言葉で述べ直す。
結果は、最初の失敗か、そうでなければ値をすべて貯めたものである。

後ろの二節は、貯めた組を写像にするときと、貯めた名前を並べて見せるときに使う。
-/

namespace Fallible

variable {ε α β K V : Type}

/-- 最初の失敗。 -/
def firstError : List (Except ε α) → Option ε
  | [] => none
  | .error e :: _ => some e
  | .ok _ :: rest => firstError rest

/-- 成功した試みの値。 -/
def values : List (Except ε α) → List α
  | [] => []
  | .error _ :: rest => values rest
  | .ok a :: rest => a :: values rest

theorem values_append (l l' : List (Except ε α)) : values (l ++ l') = values l ++ values l' := by
  induction l with
  | nil => rfl
  | cons x rest ih => cases x <;> simp [values, ih]

/-- 途中で止まる繰り返しは、最初の失敗を返すか、値をすべて貯める。 -/
theorem foldlM_eq (step : β → α → β) (l : List (Except ε α)) (b : β) :
    l.foldlM (fun b x => x.map (step b)) b =
      match firstError l with
      | some e => .error e
      | none => .ok ((values l).foldl step b) := by
  induction l generalizing b with
  | nil => rfl
  | cons x rest ih =>
    rw [List.foldlM_cons]
    cases x with
    | error e => rfl
    | ok a => exact ih (step b a)

/-- 二重の繰り返しは、平らにした一つの繰り返しである。 -/
theorem foldlM_flatMap {γ : Type} (f : β → Except ε α → Except ε β) (g : γ → List (Except ε α))
    (l : List γ) (b : β) :
    l.foldlM (fun b c => (g c).foldlM f b) b = (l.flatMap g).foldlM f b := by
  induction l generalizing b with
  | nil => rfl
  | cons c rest ih =>
    rw [List.foldlM_cons, List.flatMap_cons, List.foldlM_append]
    exact bind_congr fun b => ih b

/-! ## 最後の値 -/

section Last

variable [DecidableEq K]

/-- 鍵の最後の値。 -/
def lastOf (pairs : List (K × V)) (key : K) : Option V :=
  (pairs.reverse.find? fun p => p.1 = key).map (·.2)

theorem lastOf_append (l l' : List (K × V)) (key : K) :
    lastOf (l ++ l') key = (lastOf l' key).or (lastOf l key) := by
  unfold lastOf
  rw [List.reverse_append, List.find?_append, Option.map_or]

theorem lastOf_cons (p : K × V) (rest : List (K × V)) (key : K) :
    lastOf (p :: rest) key = (lastOf rest key).or (if p.1 = key then some p.2 else none) := by
  rw [← List.singleton_append, lastOf_append]
  by_cases h : p.1 = key <;> simp [lastOf, h]

theorem lastOf_eq_none {pairs : List (K × V)} {key : K} :
    lastOf pairs key = none ↔ ∀ p ∈ pairs, p.1 ≠ key := by
  simp [lastOf]

end Last

/-! ## 並べて重なりを除く -/

theorem mem_destutter_ne [DecidableEq K] {l : List K} {x : K} :
    x ∈ l.destutter (· ≠ ·) ↔ x ∈ l := by
  refine ⟨fun h => (List.destutter_sublist _ l).subset h, ?_⟩
  cases l with
  | nil => exact id
  | cons a rest =>
    rw [List.destutter_cons']
    induction rest generalizing a with
    | nil => exact id
    | cons b rest ih =>
      intro hx
      by_cases hab : a = b
      · rw [List.destutter'_cons_neg _ (not_not.mpr hab)]
        refine ih a ?_
        rcases List.mem_cons.mp hx with rfl | hx
        · exact List.mem_cons_self
        · rwa [hab]
      · rw [List.destutter'_cons_pos _ hab, List.mem_cons]
        exact (List.mem_cons.mp hx).imp_right (ih b)

/-- 並んだ列から隣の重なりを除くと、真に増える列になる。 -/
theorem pairwise_destutter_ne [LinearOrder K] {l : List K} (h : l.Pairwise (· ≤ ·)) :
    (l.destutter (· ≠ ·)).Pairwise (· < ·) := by
  have hle := (h.sublist (List.destutter_sublist (· ≠ ·) l)).isChain
  have hne : (l.destutter (· ≠ ·)).IsChain (· ≠ ·) := List.isChain_destutter _ l
  rw [← List.isChain_iff_pairwise]
  rw [List.isChain_iff_forall_rel_of_append_cons_cons] at hle hne ⊢
  exact fun a b l₁ l₂ heq => lt_of_le_of_ne (hle heq) (hne heq)

end Fallible
