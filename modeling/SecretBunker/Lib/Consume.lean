import Mathlib.Data.List.Basic

/-!
# 前から食べていく読み取り

列の先頭から値を一つ読み、残りを返す一歩を、読めなくなるまで繰り返す。
一歩ごとに列が短くなるので必ず止まる。同じ一歩を持つ二つの読み手は、同じ値を同じ順に読み、
同じ位置で止まる。
-/

namespace Consume

variable {α γ : Type}

/-- 一歩。読めたときには列が必ず短くなる。 -/
structure Consumer (γ α : Type) where
  step : List γ → Option (α × List γ)
  shrinks : ∀ {l a rest}, step l = some (a, rest) → rest.length < l.length

namespace Consumer

/-- 読めた値と、止まったときの残り。 -/
def run (c : Consumer γ α) (l : List γ) : List α × List γ :=
  match _h : c.step l with
  | none => ([], l)
  | some (a, rest) => (a :: (c.run rest).1, (c.run rest).2)
termination_by l.length
decreasing_by all_goals exact c.shrinks _h

variable {c d : Consumer γ α}

theorem run_of_none {l : List γ} (h : c.step l = none) : c.run l = ([], l) := by
  unfold run
  split
  · rfl
  · next h' => rw [h] at h'; cases h'

theorem run_of_some {l rest : List γ} {a : α} (h : c.step l = some (a, rest)) :
    c.run l = (a :: (c.run rest).1, (c.run rest).2) := by
  rw [run]
  split
  · next h' => rw [h] at h'; cases h'
  · next h' =>
    rw [h] at h'
    cases h'
    rfl

/-- 止まったところは、もう読めない。 -/
theorem step_run (c : Consumer γ α) (l : List γ) : c.step (c.run l).2 = none := by
  induction l using run.induct c with
  | case1 l h => rwa [run_of_none h]
  | case2 l a rest h ih => rwa [run_of_some h]

theorem run_congr (h : ∀ l, c.step l = d.step l) (l : List γ) : c.run l = d.run l := by
  induction l using run.induct c with
  | case1 l hl => rw [run_of_none hl, run_of_none ((h l).symm.trans hl)]
  | case2 l a rest hl ih => rw [run_of_some hl, run_of_some ((h l).symm.trans hl), ih]

/-- 境目の決まった符号を並べたものは、残らず読み戻せる。 -/
theorem run_flatMap {code : α → List γ} {l : List α}
    (h : ∀ a ∈ l, ∀ rest, c.step (code a ++ rest) = some (a, rest)) (hnil : c.step [] = none) :
    c.run (l.flatMap code) = (l, []) := by
  induction l with
  | nil => exact run_of_none hnil
  | cons a l ih =>
    rw [List.flatMap_cons, run_of_some (h a List.mem_cons_self _),
      ih fun b hb => h b (List.mem_cons_of_mem _ hb)]

/-- 符号の途中では何も読めない読み手は、切れた列から、届ききった符号の分だけを読む。 -/
theorem run_take_flatMap {code : α → List γ} {l : List α}
    (hread : ∀ a ∈ l, ∀ rest, c.step (code a ++ rest) = some (a, rest))
    (hcut : ∀ a ∈ l, ∀ p, p <+: code a → p ≠ code a → c.step p = none) (hnil : c.step [] = none)
    (cut : Nat) :
    ∃ n ≤ l.length, (c.run ((l.flatMap code).take cut)).1 = l.take n ∧
      ((l.take n).flatMap code).length ≤ cut ∧
      (n < l.length → cut < ((l.take (n + 1)).flatMap code).length) := by
  induction l generalizing cut with
  | nil =>
    refine ⟨0, Nat.le_refl _, ?_, Nat.zero_le _, fun h => absurd h (Nat.lt_irrefl _)⟩
    rw [List.flatMap_nil, List.take_nil, run_of_none hnil]
    rfl
  | cons a l ih =>
    rw [List.flatMap_cons]
    by_cases hwhole : (code a).length ≤ cut
    · obtain ⟨n, hn, hrun, hlen, hnext⟩ := ih (fun b hb => hread b (List.mem_cons_of_mem _ hb))
        (fun b hb => hcut b (List.mem_cons_of_mem _ hb)) (cut - (code a).length)
      refine ⟨n + 1, Nat.succ_le_succ hn, ?_, ?_, fun h => ?_⟩
      · rw [List.take_append, List.take_of_length_le hwhole,
          run_of_some (hread a List.mem_cons_self _), hrun]
        rfl
      · rw [List.take_succ_cons, List.flatMap_cons, List.length_append]
        omega
      · have hlt := hnext (Nat.lt_of_succ_lt_succ h)
        rw [List.take_succ_cons, List.flatMap_cons, List.length_append]
        omega
    · refine ⟨0, Nat.zero_le _, ?_, Nat.zero_le _, fun _ => ?_⟩
      · have hstop : c.step ((code a).take cut) = none := by
          refine hcut a List.mem_cons_self _ (List.take_prefix _ _) fun heq => hwhole ?_
          rw [← heq, List.length_take]
          omega
        rw [List.take_append_of_le_length (by omega), run_of_none hstop]
        rfl
      · rw [List.take_succ_cons, List.take_zero, List.flatMap_cons, List.flatMap_nil,
          List.append_nil]
        omega

end Consumer

end Consume
