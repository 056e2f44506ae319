import Mathlib.Data.List.Basic

/-!
# 失敗しうる文と transaction

文を順に出す手続き。どの文も、制約によって、または外から与えた故障の列によって失敗しうる。
失敗した文は何も変えない。transaction は commit できたときだけ残り、途中の失敗でも
早い return でも、始めの状態に戻る。

規則は二つの向きにある。`Atomic` は「悪い答えなら状態は変わっていない」、
`_calm` の補題は「故障が無ければこの関数を計算する」である。
-/

namespace Transaction

/-- 接続。`faults` の先頭が、次の文が故障するかどうかを決める。尽きれば故障しない。 -/
structure Conn (σ : Type) where
  data : σ
  faults : List Bool

/-- 故障の無い接続。 -/
def Conn.calm {σ : Type} (s : σ) : Conn σ := ⟨s, []⟩

/-- 文を順に出す手続き。 -/
def Script (σ α : Type) : Type := Conn σ → α × Conn σ

instance {σ : Type} : Monad (Script σ) where
  pure a c := (a, c)
  bind x f c := f (x c).1 (x c).2

instance {σ : Type} : LawfulMonad (Script σ) :=
  LawfulMonad.mk' _ (fun _ => rfl) (fun _ _ => rfl) fun _ _ _ => rfl

/-- 失敗しうる手続き。失敗しても、確定した文の効果は残る。 -/
abbrev Sql (σ : Type) := OptionT (Script σ)

variable {σ α β : Type}

theorem bind_apply (x : Script σ α) (f : α → Script σ β) (c : Conn σ) :
    (x >>= f) c = f (x c).1 (x c).2 := rfl

theorem pure_apply (a : α) (c : Conn σ) : (pure a : Script σ α) c = (a, c) := rfl

theorem run_bind (x : Sql σ α) (f : α → Sql σ β) : (x >>= f).run = x.run >>= fun r =>
    match r with
    | some a => (f a).run
    | none => pure none := rfl

theorem run_bind_pure (x : Sql σ α) (b : β) (c : Conn σ) :
    ((x >>= fun _ => pure b).run c).2 = (x.run c).2 := by
  rw [run_bind, bind_apply]
  cases (x.run c).1 <;> rfl

/-- 一つの文。 -/
def statement (f : σ → Option (α × σ)) : Sql σ α := OptionT.mk fun c =>
  match c.faults.headD false, f c.data with
  | false, some (a, s) => (some a, ⟨s, c.faults.tail⟩)
  | _, _ => (none, ⟨c.data, c.faults.tail⟩)

/-- SELECT。 -/
def query (f : σ → Option α) : Sql σ α := statement fun s => (f s).map fun a => (a, s)

/-- INSERT、UPDATE、DELETE。 -/
def execute (f : σ → Option σ) : Sql σ Unit := statement fun s => (f s).map fun s' => ((), s')

/-- 文を出さない検査。 -/
def ensure (b : Bool) : Sql σ Unit := if b then pure () else failure

/-- transaction の終わり方。`rollback` は commit せずに返す早い return である。 -/
inductive Ending (α : Type) where
  | commit (a : α)
  | rollback (a : α)

/-- BEGIN と COMMIT も文であり、故障しうる。 -/
def transaction (body : Sql σ (Ending α)) : Sql σ α := OptionT.mk fun c =>
  let r := (statement (fun s => some ((), s)) >>= fun _ => body).run c
  match r.1 with
  | some (.commit a) =>
    let committed := (statement fun s => some (a, s)).run r.2
    match committed.1 with
    | some _ => committed
    | none => (none, ⟨c.data, committed.2.faults⟩)
  | some (.rollback a) => (some a, ⟨c.data, r.2.faults⟩)
  | none => (none, ⟨c.data, r.2.faults⟩)

/-! ## 一つの文と transaction の結果 -/

theorem statement_cases (f : σ → Option (α × σ)) (c : Conn σ) :
    (∃ a s, f c.data = some (a, s) ∧ (statement f).run c = (some a, ⟨s, c.faults.tail⟩)) ∨
      (statement f).run c = (none, ⟨c.data, c.faults.tail⟩) := by
  have hrun : (statement f).run c = match c.faults.headD false, f c.data with
    | false, some (a, s) => (some a, ⟨s, c.faults.tail⟩)
    | _, _ => (none, ⟨c.data, c.faults.tail⟩) := rfl
  cases hb : c.faults.headD false with
  | true => exact Or.inr (by rw [hrun, hb])
  | false =>
    cases hf : f c.data with
    | none => exact Or.inr (by rw [hrun, hb, hf])
    | some r => exact Or.inl ⟨r.1, r.2, rfl, by rw [hrun, hb, hf]⟩

/-- transaction は、元の状態に戻ったか、中身が commit まで進んだかのどちらかである。 -/
theorem transaction_cases (body : Sql σ (Ending α)) (c : Conn σ) :
    (((transaction body).run c).2.data = c.data ∧ ∀ a, ((transaction body).run c).1 = some a →
      ∃ c₁, (body.run c₁).1 = some (.rollback a)) ∨
    ∃ a c₁, (body.run c₁).1 = some (.commit a) ∧ ((transaction body).run c).1 = some a := by
  generalize hr : (statement (fun s => some ((), s)) >>= fun _ => body).run c = r
  have hrun : (transaction body).run c = match r.1 with
    | some (.commit a) =>
      match ((statement fun s => some (a, s)).run r.2).1 with
      | some _ => (statement fun s => some (a, s)).run r.2
      | none => (none, ⟨c.data, ((statement fun s => some (a, s)).run r.2).2.faults⟩)
    | some (.rollback a) => (some a, ⟨c.data, r.2.faults⟩)
    | none => (none, ⟨c.data, r.2.faults⟩) := by
    rw [← hr]
    rfl
  have hbody : ∀ e, r.1 = some e → ∃ c₁, (body.run c₁).1 = some e := by
    intro e he
    rw [run_bind, bind_apply] at hr
    rcases statement_cases (fun s => some ((), s)) c with ⟨a, s, -, hs⟩ | hs
    · rw [hs] at hr
      exact ⟨_, (congrArg Prod.fst hr).trans he⟩
    · rw [hs] at hr
      exact absurd ((congrArg Prod.fst hr).trans he) (by simp [pure_apply])
  rw [hrun]
  rcases h1 : r.1 with _ | (a | a)
  · exact Or.inl ⟨rfl, fun a ha => by cases ha⟩
  · obtain ⟨c₁, hc₁⟩ := hbody _ h1
    rcases statement_cases (fun s => some (a, s)) r.2 with ⟨b, s, hb, hs⟩ | hs
    · cases hb
      exact Or.inr ⟨a, c₁, hc₁, by simp only [hs]⟩
    · exact Or.inl ⟨by simp only [hs], fun b hb => by simp only [hs] at hb; cases hb⟩
  · obtain ⟨c₁, hc₁⟩ := hbody _ h1
    exact Or.inl ⟨rfl, fun b hb => by cases hb; exact ⟨c₁, hc₁⟩⟩

/-! ## 答えの形 -/

/-- どう走っても、答えは `P` を満たす。 -/
def Returns (P : α → Prop) (x : Script σ α) : Prop := ∀ c, P (x c).1

namespace Returns

variable {P : β → Prop}

theorem pure {b : β} (h : P b) : Returns P (pure b : Script σ β) := fun _ => h

theorem bind {x : Script σ α} {f : α → Script σ β} (h : ∀ a, Returns P (f a)) :
    Returns P (x >>= f) := fun c => h (x c).1 (x c).2

/-- 途中の失敗でも `P` が成り立つときの、失敗しうる手続きの合成。 -/
theorem run_bind {P : Option β → Prop} {x : Sql σ α} {f : α → Sql σ β} (hnone : P none)
    (h : ∀ a, Returns P (f a).run) : Returns P (x >>= f).run := by
  rw [Transaction.run_bind]
  refine bind fun r => ?_
  cases r with
  | none => exact pure hnone
  | some a => exact h a

end Returns

/-! ## 読むだけの手続き -/

/-- 手続きは状態を変えない。 -/
def ReadOnly (x : Script σ α) : Prop := ∀ c, (x c).2.data = c.data

namespace ReadOnly

theorem pure (a : α) : ReadOnly (pure a : Script σ α) := fun _ => rfl

theorem bind {x : Script σ α} {f : α → Script σ β} (hx : ReadOnly x)
    (hf : ∀ a, ReadOnly (f a)) : ReadOnly (x >>= f) :=
  fun c => (hf (x c).1 (x c).2).trans (hx c)

theorem run_bind {x : Sql σ α} {f : α → Sql σ β} (hx : ReadOnly x.run)
    (hf : ∀ a, ReadOnly (f a).run) : ReadOnly (x >>= f).run := by
  rw [Transaction.run_bind]
  refine hx.bind fun r => ?_
  cases r with
  | none => exact pure none
  | some a => exact hf a

theorem query (f : σ → Option α) : ReadOnly (query f).run := by
  intro c
  rcases statement_cases (fun s => (f s).map fun a => (a, s)) c with ⟨a, s, hs, hrun⟩ | hrun
  · obtain ⟨b, -, hb⟩ := Option.map_eq_some_iff.mp hs
    show ((Transaction.statement _).run c).2.data = c.data
    rw [hrun]
    exact (congrArg Prod.snd hb).symm
  · exact congrArg (fun r => r.2.data) hrun

theorem mapM {f : α → Sql σ β} (hf : ∀ a, ReadOnly (f a).run) (l : List α) :
    ReadOnly (l.mapM f).run := by
  induction l with
  | nil => exact pure _
  | cons a l ih =>
    rw [List.mapM_cons]
    exact run_bind (hf a) fun b => run_bind ih fun bs => pure _

end ReadOnly

/-! ## 失敗したら何も変えない手続き -/

/-- 答えが `bad` なら、状態は元のままである。 -/
def Atomic (bad : α → Prop) (x : Script σ α) : Prop := ∀ c, bad (x c).1 → (x c).2.data = c.data

namespace Atomic

variable {bad : β → Prop} {bad' : α → Prop}

theorem of_readOnly {x : Script σ β} (hx : ReadOnly x) : Atomic bad x := fun c _ => hx c

/-- 先に読んでから続ける。 -/
theorem after {x : Script σ α} {f : α → Script σ β} (hx : ReadOnly x)
    (hf : ∀ a, Atomic bad (f a)) : Atomic bad (x >>= f) :=
  fun c h => (hf (x c).1 (x c).2 h).trans (hx c)

/-- 答えるだけである。 -/
theorem answer (b : β) : Atomic bad (pure b : Script σ β) := of_readOnly (.pure b)

/-- 読めなければ答え、読めればその値で続ける。 -/
theorem asked {x : Sql σ α} {f : Option α → Script σ β} (hx : ReadOnly x.run)
    (hnone : ReadOnly (f none)) (hf : ∀ a, Atomic bad (f (some a))) : Atomic bad (x.run >>= f) := by
  refine after hx fun r => ?_
  cases r with
  | none => exact of_readOnly hnone
  | some a => exact hf a

theorem run_bind {x : Sql σ α} {f : α → Sql σ β} (hx : ReadOnly x.run)
    (hf : ∀ a, Atomic (· = none) (f a).run) : Atomic (· = none) (x >>= f).run := by
  rw [Transaction.run_bind]
  exact asked hx (.pure none) hf

/-- 書き込みの後の続き。書けたのなら、もう悪い答えを返さない。 -/
theorem bind {x : Script σ α} {f : α → Script σ β} (hx : Atomic bad' x)
    (hbad : ∀ a, bad' a → Atomic bad (f a)) (hgood : ∀ a, ¬ bad' a → Returns (¬ bad ·) (f a)) :
    Atomic bad (x >>= f) := by
  intro c h
  by_cases ha : bad' (x c).1
  · exact (hbad _ ha (x c).2 h).trans (hx c ha)
  · exact absurd h (hgood _ ha (x c).2)

theorem statement (f : σ → Option (α × σ)) : Atomic (· = none) (statement f).run := by
  intro c h
  rcases statement_cases f c with ⟨a, s, -, hrun⟩ | hrun
  · rw [hrun] at h
    cases h
  · rw [hrun]

/-- commit した答えがどれも `good` なら、そうでない答えの transaction は何も変えていない。 -/
theorem transaction_of {good : α → Prop} {body : Sql σ (Ending α)}
    (hbody : Returns (fun r => ∀ a, r = some (.commit a) → good a) body.run) :
    Atomic (fun r => ∀ a, r = some a → ¬ good a) (transaction body).run := by
  intro c hbad
  rcases transaction_cases body c with ⟨hsame, -⟩ | ⟨a, c₁, hcommit, ha⟩
  · exact hsame
  · exact absurd (hbody c₁ a hcommit) (hbad a ha)

theorem transaction (body : Sql σ (Ending α)) : Atomic (· = none) (transaction body).run := by
  intro c h
  have hatom : Atomic (fun r => ∀ a, r = some a → ¬ True) (Transaction.transaction body).run :=
    transaction_of fun _ _ _ => trivial
  refine hatom c fun a ha => ?_
  rw [h] at ha
  cases ha

end Atomic

/-! ## 故障のもとで関数を計算する手続き -/

/-- どの故障のもとでも、`f` を計算するか、失敗して何も変えないかのどちらかである。 -/
def Performs (x : Sql σ α) (f : σ → Option (α × σ)) : Prop :=
  ∀ c, ((x.run c).1 = none ∧ (x.run c).2.data = c.data) ∨
    ∃ a, (x.run c).1 = some a ∧ f c.data = some (a, (x.run c).2.data)

namespace Performs

theorem statement (f : σ → Option (α × σ)) : Performs (statement f) f := by
  intro c
  rcases statement_cases f c with ⟨a, s, hf, hrun⟩ | hrun
  · exact Or.inr ⟨a, by rw [hrun], by rw [hrun, hf]⟩
  · exact Or.inl ⟨by rw [hrun], by rw [hrun]⟩

theorem option (o : Option α) :
    Performs (OptionT.mk (pure o) : Sql σ α) fun s => o.map fun a => (a, s) := by
  intro c
  cases o with
  | none => exact Or.inl ⟨rfl, rfl⟩
  | some a => exact Or.inr ⟨a, rfl, rfl⟩

theorem congr {x : Sql σ α} {f g : σ → Option (α × σ)} (h : Performs x f) (hfg : ∀ s, f s = g s) :
    Performs x g := funext hfg ▸ h

/-- 読んだ値で続ける。続きが失敗しても、まだ何も変わっていない。 -/
theorem bind {x : Sql σ α} {y : α → Sql σ β} {f : σ → Option α} {g : α → σ → Option (β × σ)}
    (hx : Performs x fun s => (f s).map fun a => (a, s)) (hy : ∀ a, Performs (y a) (g a)) :
    Performs (x >>= y) fun s => (f s).bind fun a => g a s := by
  intro c
  rw [Transaction.run_bind, bind_apply]
  rcases hx c with ⟨hnone, hsame⟩ | ⟨a, hsome, hf⟩
  · rw [hnone]
    exact Or.inl ⟨rfl, hsame⟩
  · obtain ⟨b, hb, he⟩ := Option.map_eq_some_iff.mp hf
    obtain ⟨rfl, hsame⟩ := Prod.mk.inj he
    rw [hsome]
    rcases hy b (x.run c).2 with ⟨hnone, hkept⟩ | ⟨r, hr, hg⟩
    · exact Or.inl ⟨hnone, hkept.trans hsame.symm⟩
    · refine Or.inr ⟨r, hr, ?_⟩
      show (f c.data).bind _ = _
      rw [hb, Option.bind_some, hsame]
      exact hg

/-- 繰り返しは、途中で止まっても、先頭のいくつかを済ませたところにいる。 -/
theorem forM {g : α → Sql σ Unit} {f : σ → α → Option σ}
    (hg : ∀ a, Performs (g a) fun s => (f s a).map fun s' => ((), s')) (l : List α) (c : Conn σ) :
    ∃ done, done <+: l ∧ done.foldlM f c.data = some ((l.forM g).run c).2.data ∧
      (((l.forM g).run c).1 = some () → done = l) := by
  induction l generalizing c with
  | nil => exact ⟨[], List.prefix_refl _, rfl, fun _ => rfl⟩
  | cons a l ih =>
    have hrun : ((a :: l).forM g).run c = match ((g a).run c).1 with
        | some _ => (l.forM g).run ((g a).run c).2
        | none => (none, ((g a).run c).2) := by
      show (g a >>= fun _ => l.forM g).run c = _
      rw [Transaction.run_bind, bind_apply]
      cases ((g a).run c).1 <;> rfl
    rcases hg a c with ⟨hnone, hsame⟩ | ⟨_, hsome, hf⟩
    · rw [hnone] at hrun
      rw [hrun]
      exact ⟨[], List.nil_prefix, by rw [hsame]; rfl, fun h => by cases h⟩
    · rw [hsome] at hrun
      rw [hrun]
      obtain ⟨done, hpre, hfold, hall⟩ := ih ((g a).run c).2
      obtain ⟨s', hs', he⟩ := Option.map_eq_some_iff.mp hf
      refine ⟨a :: done, List.cons_prefix_cons.mpr ⟨rfl, hpre⟩, ?_, fun h => by rw [hall h]⟩
      rw [List.foldlM_cons, hs', (Prod.mk.inj he).2]
      exact hfold

end Performs

/-! ## 故障の無いとき -/

/-- 失敗しうる関数の値を、故障の無い手続きの結果として見たもの。失敗なら `s` のままである。 -/
def settled (s : σ) : Option (α × σ) → Option α × Conn σ
  | some (a, s') => (some a, .calm s')
  | none => (none, .calm s)

theorem statement_calm (f : σ → Option (α × σ)) (s : σ) :
    (statement f).run (.calm s) = settled s (f s) := by
  show (match false, f s with
    | false, some (a, s) => ((some a, ⟨s, []⟩) : Option α × Conn σ)
    | _, _ => (none, ⟨s, []⟩)) = _
  cases f s <;> rfl

theorem query_calm (f : σ → Option α) (s : σ) : (query f).run (.calm s) = (f s, .calm s) := by
  rw [query, statement_calm]
  cases f s <;> rfl

theorem ensure_calm {b : Bool} {x : Sql σ α} {c : Conn σ} :
    (ensure b >>= fun _ => x).run c = if b then x.run c else (none, c) := by
  cases b <;> rfl

/-- 故障の無い `s` から走らせた `x` の結果は `r` である。失敗したときの途中の状態は問わない。 -/
structure Computes (x : Sql σ α) (s : σ) (r : Option (α × σ)) : Prop where
  faults : (x.run (.calm s)).2.faults = []
  value : (x.run (.calm s)).1 = r.map Prod.fst
  state : ∀ a s', r = some (a, s') → (x.run (.calm s)).2 = .calm s'

namespace Computes

variable {x : Sql σ α} {s : σ}

theorem statement (f : σ → Option (α × σ)) (s : σ) : Computes (statement f) s (f s) := by
  have hrun := statement_calm f s
  cases hf : f s with
  | none =>
    rw [hf] at hrun
    exact ⟨by rw [hrun]; rfl, by rw [hrun]; rfl, fun a s' h => by cases h⟩
  | some r =>
    rw [hf] at hrun
    exact ⟨by rw [hrun]; rfl, by rw [hrun]; rfl, fun a s' h => by cases h; rw [hrun]; rfl⟩

theorem execute (f : σ → Option σ) (s : σ) :
    Computes (execute f) s ((f s).map fun s' => ((), s')) := statement _ s

theorem pure (a : α) (s : σ) : Computes (pure a : Sql σ α) s (some (a, s)) :=
  ⟨rfl, rfl, fun _ _ h => by cases h; rfl⟩

theorem option (o : Option α) (s : σ) :
    Computes (OptionT.mk (Pure.pure o)) s (o.map fun a => (a, s)) := by
  cases o with
  | none => exact ⟨rfl, rfl, fun _ _ h => by cases h⟩
  | some a => exact pure a s

theorem ensure (b : Bool) (s : σ) :
    Computes (ensure b) s (if b then some ((), s) else none) := by
  cases b
  · exact ⟨rfl, rfl, fun _ _ h => by cases h⟩
  · exact pure () s

theorem bind {r : Option (α × σ)} {g : α → Sql σ β} {h : α → σ → Option (β × σ)}
    (hx : Computes x s r) (hg : ∀ a s', Computes (g a) s' (h a s')) :
    Computes (x >>= g) s (r.bind fun p => h p.1 p.2) := by
  obtain ⟨hfaults, hvalue, hstate⟩ := hx
  have hrun : (x >>= g).run (.calm s) = (match r.map Prod.fst with
      | some a => (g a).run
      | none => Pure.pure none) (x.run (.calm s)).2 := by
    rw [run_bind, bind_apply, hvalue]
  rcases r with _ | ⟨a, s'⟩
  · exact ⟨by rw [hrun]; exact hfaults, by rw [hrun]; rfl, fun b s' h => by cases h⟩
  · rw [hstate a s' rfl] at hrun
    obtain ⟨hf, hv, hs⟩ := hg a s'
    exact ⟨by rw [hrun]; exact hf, by rw [hrun]; exact hv, fun b s₁ h => by rw [hrun]; exact hs b s₁ h⟩

theorem congr {r r' : Option (α × σ)} (h : Computes x s r) (hr : r = r') : Computes x s r' :=
  hr ▸ h

/-- 読んだ値で続ける。 -/
theorem select_bind {f : σ → α} {g : α → Sql σ β} {r : Option (β × σ)}
    (hg : Computes (g (f s)) s r) : Computes (query (fun s => some (f s)) >>= g) s r := by
  have hrun : (query (fun s => some (f s)) >>= g).run (.calm s) = (g (f s)).run (.calm s) := by
    rw [run_bind, bind_apply, query_calm]
  exact ⟨by rw [hrun]; exact hg.faults, by rw [hrun]; exact hg.value,
    fun b s' h => by rw [hrun]; exact hg.state b s' h⟩

/-- 繰り返しは `foldlM` を計算する。 -/
theorem forM {g : α → Sql σ Unit} {f : α → σ → Option σ}
    (hg : ∀ a s, Computes (g a) s ((f a s).map fun s' => ((), s'))) (l : List α) (s : σ) :
    Computes (l.forM g) s ((l.foldlM (fun s a => f a s) s).map fun s' => ((), s')) := by
  induction l generalizing s with
  | nil => exact pure () s
  | cons a l ih =>
    have h := (hg a s).bind fun _ => ih
    rw [List.foldlM_cons]
    cases hf : f a s with
    | none =>
      rw [hf] at h
      exact h
    | some s' =>
      rw [hf] at h
      exact h

end Computes

/-- transaction の終わり方を、元の状態 `s` から見た結果にする。 -/
def Ending.settle (s : σ) : Option (Ending α × σ) → Option (α × σ)
  | some (.commit a, s') => some (a, s')
  | some (.rollback a, _) => some (a, s)
  | none => none

/-- 故障の無い transaction は、本体の終わり方のとおりになる。 -/
theorem transaction_calm {body : Sql σ (Ending α)} {s : σ} {r : Option (Ending α × σ)}
    (h : Computes body s r) :
    (transaction body).run (.calm s) = settled s (Ending.settle s r) := by
  obtain ⟨hfaults, hvalue, hstate⟩ := h
  have hbegin : (statement (fun s => some ((), s)) >>= fun _ => body).run (.calm s)
      = body.run (.calm s) := by
    rw [run_bind, bind_apply, statement_calm]
    rfl
  show (match ((statement (fun s => some ((), s)) >>= fun _ => body).run (.calm s)).1 with
    | some (.commit a) => _
    | some (.rollback a) => _
    | none => _) = _
  rw [hbegin, hvalue]
  rcases r with _ | ⟨a | a, s'⟩
  · show (none, (⟨s, _⟩ : Conn σ)) = _
    rw [hfaults]
    rfl
  · show (match ((statement fun s => some (a, s)).run _).1 with
      | some _ => _
      | none => _) = _
    rw [hstate _ _ rfl, statement_calm]
    rfl
  · show (some a, (⟨s, _⟩ : Conn σ)) = _
    rw [hfaults]
    rfl

end Transaction
