import Mathlib.Data.List.Basic
import SecretBunker.Lib.Program

/-!
# 並んで走る手続き

一つの共有状態の上で、いくつもの手続きが動作を一つずつ、任意の順に行う。環境も間に動く。

どの手続きの動作も、環境の動きも同じ幅 `rel` に収まるなら、それぞれの手続きはほかの全員を環境と見て
よい。手続き一つについて示したこと（`Abides`）は、並べて走らせた全体についても成り立つ。
-/

namespace Interleaving

variable {σ α β : Type}

/-- 動作一つが共有状態にすること。 -/
def Prog.effect : Prog σ α → σ → σ
  | .act update _, s => update s
  | _, s => s

/-- 高々 `n` 回の動作で答える。 -/
def Prog.Within : Nat → Prog σ α → Prop
  | _, .ret _ => True
  | _, .fail => False
  | 0, .act _ _ => False
  | n + 1, .act _ next => ∀ s, (next s).Within n

@[simp] theorem Prog.within_ret (n : Nat) (a : α) : (Prog.ret a : Prog σ α).Within n := by
  cases n <;> trivial

@[simp] theorem Prog.not_within_fail (n : Nat) : ¬ (Prog.fail : Prog σ α).Within n := by
  cases n <;> exact id

theorem Prog.Within.exists_ret {p : Prog σ α} (h : p.Within 0) : ∃ a, p = .ret a := by
  cases p with
  | ret a => exact ⟨a, rfl⟩
  | fail => exact h.elim
  | act update next => exact h.elim

theorem Prog.Within.next {n : Nat} {p : Prog σ α} (h : p.Within n) (s : σ) :
    (p.next s).Within (n - 1) := by
  cases p with
  | ret a => exact within_ret _ a
  | fail => exact absurd h (not_within_fail n)
  | act update next =>
    cases n with
    | zero => exact h.elim
    | succ n => exact h s

theorem Prog.Within.mono {m n : Nat} (hmn : m ≤ n) {p : Prog σ α} (h : p.Within m) :
    p.Within n := by
  induction p generalizing m n with
  | ret a => exact within_ret n a
  | fail => exact absurd h (not_within_fail m)
  | act update next ih =>
    cases m with
    | zero => exact h.elim
    | succ m =>
      obtain ⟨n, rfl⟩ : ∃ k, n = k + 1 := ⟨n - 1, by omega⟩
      exact fun s => ih s (by omega) (h s)

theorem Prog.Within.atomic_bind {n : Nat} {f : σ → α × σ} {k : α → Prog σ β}
    (h : ∀ a, (k a).Within n) : (Prog.atomic f >>= k).Within (n + 1) := fun s => h (f s).1

/-! ## 幅 -/

/-- 全員の動きが収まる幅。 -/
structure Accord (σ : Type) where
  rel : σ → σ → Prop
  refl : ∀ s, rel s s
  trans : ∀ {a b c}, rel a b → rel b c → rel a c

namespace Accord

variable (A : Accord σ)

/-- 環境が幅の中でどう動いても、手続きの動作は幅に収まり、終わったときには `post` が成り立つ。 -/
def Abides (post : α → σ → Prop) : Prog σ α → σ → Prop
  | .ret a, s => ∀ s', A.rel s s' → post a s'
  | .fail, _ => True
  | .act update next, s => ∀ s', A.rel s s' →
      A.rel s' (update s') ∧ Abides post (next s') (update s')

variable {A} {post : α → σ → Prop} {p : Prog σ α} {s s' : σ}

theorem Abides.stable (h : A.Abides post p s) (hr : A.rel s s') : A.Abides post p s' := by
  cases p with
  | ret a => exact fun v hv => h v (A.trans hr hv)
  | fail => trivial
  | act update next => exact fun v hv => h v (A.trans hr hv)

theorem Abides.ret {a : α} (h : ∀ s', A.rel s s' → post a s') : A.Abides post (pure a) s := h

/-- 動作一つに続ける規則。割り込まれた後の状態について示せばよい。 -/
theorem Abides.atomic_bind {f : σ → β × σ} {k : β → Prog σ α}
    (h : ∀ v, A.rel s v → A.rel v (f v).2 ∧ A.Abides post (k (f v).1) (f v).2) :
    A.Abides post (Prog.atomic f >>= k) s := h

/-- 動作一つを行う。 -/
theorem Abides.advance (h : A.Abides post p s) :
    A.rel s (p.effect s) ∧ A.Abides post (p.next s) (p.effect s) := by
  cases p with
  | ret a => exact ⟨A.refl s, h⟩
  | fail => exact ⟨A.refl s, trivial⟩
  | act update next => exact h s (A.refl s)

end Accord

/-! ## 並べて走らせる -/

/-- 共有状態と、走っている手続き。 -/
structure Pool (σ α : Type) where
  shared : σ
  runs : List (Prog σ α)

namespace Pool

/-- 手続き一つの動作か、環境の動き。 -/
inductive Move (σ : Type) where
  | run (i : Nat)
  | env (s : σ)

/-- `i` 番目の手続きの動作である。 -/
def Move.isRun (i : Nat) : Move σ → Bool
  | .run j => j == i
  | .env _ => false

/-- 手続きの一つが一歩進むか、環境が動く。 -/
def step (p : Pool σ α) : Move σ → Pool σ α
  | .run i =>
    match p.runs[i]? with
    | some prog => ⟨prog.effect p.shared, p.runs.set i (prog.next p.shared)⟩
    | none => p
  | .env s => { p with shared := s }

/-- 歩みの列。 -/
def exec (p : Pool σ α) (moves : List (Move σ)) : Pool σ α := moves.foldl step p

/-- 環境の動きは、どれも `rel` に収まる。 -/
def Allows (rel : σ → σ → Prop) : Pool σ α → List (Move σ) → Prop
  | _, [] => True
  | p, m :: rest => (∀ s, m = .env s → rel p.shared s) ∧ Allows rel (p.step m) rest

theorem Allows.mono {r r' : σ → σ → Prop} (himp : ∀ s s', r s s' → r' s s') {p : Pool σ α}
    {moves : List (Move σ)} (h : p.Allows r moves) : p.Allows r' moves := by
  induction moves generalizing p with
  | nil => trivial
  | cons m rest ih => exact ⟨fun s hs => himp _ _ (h.1 s hs), ih h.2⟩

/-- `i` 番目の手続きの答え。 -/
def result (p : Pool σ α) (i : Nat) : Option α :=
  match p.runs[i]? with
  | some (.ret a) => some a
  | _ => none

variable {p : Pool σ α}

theorem result_eq_some {i : Nat} {a : α} : p.result i = some a ↔ p.runs[i]? = some (.ret a) := by
  unfold result
  split
  · next b h => simp [h]
  · next h => exact iff_of_false (fun he => nomatch he) fun he => h a he

variable {A : Accord σ} {post : α → σ → Prop}

/-- 一歩は規律を保つ。 -/
theorem abides_step (h : ∀ prog ∈ p.runs, A.Abides post prog p.shared) {m : Move σ}
    (hm : ∀ s, m = .env s → A.rel p.shared s) :
    A.rel p.shared (p.step m).shared ∧
      ∀ prog ∈ (p.step m).runs, A.Abides post prog (p.step m).shared := by
  cases m with
  | env s =>
    have hs := hm s rfl
    exact ⟨hs, fun prog hp => (h prog hp).stable hs⟩
  | run i =>
    unfold step
    dsimp only
    split
    · next prog hget =>
      obtain ⟨hrel, hnext⟩ := (h prog (List.mem_of_getElem? hget)).advance
      refine ⟨hrel, fun q hq => ?_⟩
      rcases List.mem_or_eq_of_mem_set hq with hq | rfl
      · exact (h q hq).stable hrel
      · exact hnext
    · exact ⟨A.refl _, h⟩

/-- **並べて走らせても、全体の動きは幅に収まり、それぞれの手続きの約束は残る。** -/
theorem abides_exec {moves : List (Move σ)} (h : ∀ prog ∈ p.runs, A.Abides post prog p.shared)
    (hm : p.Allows A.rel moves) :
    A.rel p.shared (p.exec moves).shared ∧
      ∀ prog ∈ (p.exec moves).runs, A.Abides post prog (p.exec moves).shared := by
  induction moves generalizing p with
  | nil => exact ⟨A.refl _, h⟩
  | cons m rest ih =>
    obtain ⟨hrel, hstep⟩ := abides_step h hm.1
    obtain ⟨hrest, hruns⟩ := ih hstep hm.2
    exact ⟨A.trans hrel hrest, hruns⟩

/-- 終わった手続きの答えは、今の共有状態で `post` を満たす。 -/
theorem post_of_result (h : ∀ prog ∈ p.runs, A.Abides post prog p.shared) {i : Nat} {a : α}
    (hr : p.result i = some a) : post a p.shared := by
  have hret : A.Abides post (.ret a) p.shared :=
    h _ (List.mem_of_getElem? (result_eq_some.mp hr))
  exact hret _ (A.refl _)

/-- 走った task の残りの歩数は減る。 -/
theorem within_step {i n : Nat} {prog : Prog σ α} (hget : p.runs[i]? = some prog)
    (h : prog.Within n) (m : Move σ) : ∃ prog', (p.step m).runs[i]? = some prog' ∧
      prog'.Within (n - if m.isRun i then 1 else 0) := by
  cases m with
  | env s => exact ⟨prog, hget, h⟩
  | run j =>
    by_cases hij : j = i
    · subst hij
      have hlt : j < p.runs.length := (List.getElem?_eq_some_iff.mp hget).1
      refine ⟨prog.next p.shared, ?_, ?_⟩
      · unfold step
        dsimp only
        rw [hget]
        exact List.getElem?_set_self hlt
      · simpa [Move.isRun] using h.next p.shared
    · refine ⟨prog, ?_, by simpa [Move.isRun, hij] using h⟩
      unfold step
      dsimp only
      split
      · rw [List.getElem?_set_ne hij]
        exact hget
      · exact hget

theorem within_exec {i n : Nat} {prog : Prog σ α} (hget : p.runs[i]? = some prog)
    (h : prog.Within n) (moves : List (Move σ)) : ∃ prog', (p.exec moves).runs[i]? = some prog' ∧
      prog'.Within (n - moves.countP (·.isRun i)) := by
  induction moves generalizing p n prog with
  | nil => exact ⟨prog, hget, h⟩
  | cons m rest ih =>
    obtain ⟨prog', hget', h'⟩ := within_step hget h m
    obtain ⟨fin, hfin, hw⟩ := ih hget' h'
    refine ⟨fin, hfin, hw.mono ?_⟩
    rw [List.countP_cons]
    omega

/-- 高々 `n` 回で答える手続きは、`n` 回動けば答えている。 -/
theorem result_of_within {i n : Nat} {prog : Prog σ α} (hget : p.runs[i]? = some prog)
    (h : prog.Within n) {moves : List (Move σ)} (hn : n ≤ moves.countP (·.isRun i)) :
    ∃ a, (p.exec moves).result i = some a := by
  obtain ⟨fin, hfin, hw⟩ := within_exec hget h moves
  rw [Nat.sub_eq_zero_of_le hn] at hw
  obtain ⟨a, rfl⟩ := hw.exists_ret
  exact ⟨a, result_eq_some.mpr hfin⟩

end Pool

end Interleaving
