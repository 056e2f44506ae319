import Mathlib.Logic.Basic

/-!
# 割り込まれる手続き

共有状態に原子的に触れながら進む手続きと、その正しさを述べる規則。
二つの原子的な動作の間には、ほかの当事者が何歩でも動く。

手続きは動作の木として持つ。走らせる側は動作を一つ取り出して行うだけなので、
途中で打ち切ることも、間に環境の歩みを挟むこともできる。
-/

namespace Interleaving

/-- 共有状態 `σ` に触れる手続き。`act` は状態を書き換え、書き換える前の状態を見て続く。 -/
inductive Prog (σ α : Type) where
  | ret (a : α)
  | fail
  | act (update : σ → σ) (next : σ → Prog σ α)

namespace Prog

variable {σ α β : Type}

/-- 続けて行う。 -/
def bind : Prog σ α → (α → Prog σ β) → Prog σ β
  | .ret a, f => f a
  | .fail, _ => .fail
  | .act update next, f => .act update fun s => (next s).bind f

instance : Monad (Prog σ) where
  pure := .ret
  bind := bind

/-- 一度の lock の中で、状態を読み書きして答えを返す。 -/
def atomic (f : σ → α × σ) : Prog σ α := .act (fun s => (f s).2) fun s => .ret (f s).1

/-- 状態を読むだけの動作。 -/
def read (f : σ → α) : Prog σ α := atomic fun s => (f s, s)

/-- 状態を書き換えるだけの動作。 -/
def modify (f : σ → σ) : Prog σ Unit := atomic fun s => ((), f s)

/-- 失敗すれば状態を変えずに手続きごと失敗する動作。 -/
def attempt (f : σ → Option (α × σ)) : Prog σ α :=
  .act (fun s => ((f s).map Prod.snd).getD s) fun s =>
    match f s with
    | some (a, _) => .ret a
    | none => .fail

/-- 値が無ければ失敗する。 -/
def orFail : Option α → Prog σ α
  | some a => .ret a
  | none => .fail

/-- 割り込みなしに走らせる。 -/
def run : Prog σ α → σ → Option α × σ
  | .ret a, s => (some a, s)
  | .fail, s => (none, s)
  | .act update next, s => (next s).run (update s)

/-- 状態 `s` で動作を一つ行った残り。 -/
def next : Prog σ α → σ → Prog σ α
  | .act _ k, s => k s
  | p, _ => p

/-- 次の動作が状態に施すこと。 -/
def update : Prog σ α → σ → σ
  | .act f _, s => f s
  | _, s => s

/-- 状態の列 `seen` で一つずつ動作を行った残り。 -/
def after (p : Prog σ α) (seen : List σ) : Prog σ α := seen.foldl next p

theorem next_read_bind (f : σ → α) (k : α → Prog σ β) (s : σ) :
    (read f >>= k).next s = k (f s) := rfl

theorem after_cons (p : Prog σ α) (s : σ) (seen : List σ) :
    p.after (s :: seen) = (p.next s).after seen := rfl

/-- どの動作の前後も `R` の関係にある。 -/
def Obeys (R : σ → σ → Prop) : Prog σ α → Prop
  | .act update next => (∀ s, R s (update s)) ∧ ∀ s, (next s).Obeys R
  | _ => True

/-- どの動作も `f` の見るものを変えない。 -/
abbrev Keeps (f : σ → β) (p : Prog σ α) : Prop := p.Obeys fun s s' => f s' = f s

variable {γ : Type} {p : Prog σ α} {R : σ → σ → Prop} {s s' : σ} {a : α}

theorem Obeys.bind {k : α → Prog σ β} (h : p.Obeys R) (hk : ∀ a, (k a).Obeys R) :
    (p >>= k).Obeys R := by
  show (p.bind k).Obeys R
  induction p with
  | ret a => exact hk a
  | fail => trivial
  | act update next ih => exact ⟨h.1, fun s => ih s (h.2 s)⟩

theorem Obeys.atomic {g : σ → α × σ} (h : ∀ s, R s (g s).2) : (Prog.atomic g).Obeys R :=
  ⟨h, fun _ => trivial⟩

theorem Obeys.attempt {g : σ → Option (α × σ)} (hrefl : ∀ s, R s s)
    (h : ∀ s a s', g s = some (a, s') → R s s') : (Prog.attempt g).Obeys R := by
  refine ⟨fun s => ?_, fun s => ?_⟩ <;> dsimp only
  · cases hg : g s with
    | none => exact hrefl s
    | some x => exact h s x.1 x.2 hg
  · cases g s with
    | none => trivial
    | some x => trivial

theorem Obeys.orFail (x : Option α) : (Prog.orFail x : Prog σ α).Obeys R := by
  cases x with
  | none => trivial
  | some a => trivial

theorem Obeys.forM {k : β → Prog σ Unit} (hk : ∀ b, (k b).Obeys R) (l : List β) :
    (l.forM k).Obeys R := by
  induction l with
  | nil => trivial
  | cons b rest ih => exact (hk b).bind fun _ => ih

theorem Obeys.after (h : p.Obeys R) (seen : List σ) : (p.after seen).Obeys R := by
  induction seen generalizing p with
  | nil => exact h
  | cons s rest ih =>
    refine ih (p := p.next s) ?_
    cases p with
    | ret a => trivial
    | fail => trivial
    | act update next => exact h.2 s

theorem Obeys.update {f : σ → γ} (h : p.Obeys fun s s' => f s' = f s) (s : σ) :
    f (p.update s) = f s := by
  cases p with
  | ret a => rfl
  | fail => rfl
  | act update next => exact h.1 s

/-- 終わるときの最後の動作は `P` を成り立たせる。 -/
def Settles (P : σ → Prop) : Prog σ α → Prop
  | .ret _ => False
  | .fail => True
  | .act update next => ∀ s, (∃ a, next s = .ret a) ∧ P (update s) ∨ (next s).Settles P

theorem Settles.after {P : σ → Prop} {k : α → Prog σ β} (hk : ∀ a, (k a).Settles P)
    (p : Prog σ α) : (p.bind k).Settles P := by
  induction p with
  | ret a => exact hk a
  | fail => trivial
  | act update next ih => exact fun s => Or.inr (ih s)

theorem bind_assoc (p : Prog σ α) (f : α → Prog σ β) (g : β → Prog σ γ) :
    (p.bind f).bind g = p.bind fun a => (f a).bind g := by
  induction p with
  | ret a => rfl
  | fail => rfl
  | act update next ih => exact congrArg (Prog.act update) (funext ih)

/-! ## 割り込みなしに走らせること -/

theorem run_bind (h : p.run s = (some a, s')) (f : α → Prog σ β) :
    (p >>= f).run s = (f a).run s' := by
  show (p.bind f).run s = (f a).run s'
  induction p generalizing s with
  | ret b =>
    cases h
    rfl
  | fail => cases h
  | act update next ih => exact ih s h

/-- 最後まで走った列は、前半が最後まで走り、その先で後半が走ったものである。 -/
theorem of_run_bind {f : α → Prog σ β} {b : β} (h : (p >>= f).run s = (some b, s')) :
    ∃ a t, p.run s = (some a, t) ∧ (f a).run t = (some b, s') := by
  replace h : (p.bind f).run s = (some b, s') := h
  induction p generalizing s with
  | ret a => exact ⟨a, s, rfl, h⟩
  | fail => cases h
  | act update next ih => exact ih s h

theorem of_run_attempt {f : σ → Option (α × σ)} (h : (attempt f).run s = (some a, s')) :
    f s = some (a, s') := by
  have hrun : (match f s with | some (a, _) => (ret a : Prog σ α) | none => .fail).run
      (((f s).map Prod.snd).getD s) = (some a, s') := h
  cases hf : f s with
  | none =>
    rw [hf] at hrun
    cases hrun
  | some x =>
    rw [hf] at hrun
    cases hrun
    rfl

theorem of_run_orFail {x : Option α} (h : (orFail x : Prog σ α).run s = (some a, s')) :
    x = some a ∧ s = s' := by
  cases x with
  | none => cases h
  | some b =>
    cases h
    exact ⟨rfl, rfl⟩

theorem Keeps.run {f : σ → γ} (h : p.Keeps f) (s : σ) : f (p.run s).2 = f s := by
  induction p generalizing s with
  | ret a => rfl
  | fail => rfl
  | act update next ih => exact (ih s (h.2 s) (update s)).trans (h.1 s)

end Prog

/-- 手続きの置かれた世界 `W`。`view` がその共有状態で、`rely` は環境が一息に動きうる幅である。 -/
structure Setting (σ W : Type) where
  view : W → σ
  put : W → σ → W
  put_view : ∀ w, put w (view w) = w
  /-- 環境も手続きも保つ条件。 -/
  inv : W → Prop
  rely : W → W → Prop
  refl : ∀ w, rely w w
  trans : ∀ {a b c}, rely a b → rely b c → rely a c
  /-- 手続きが失敗してよいか。 -/
  mayFail : Prop
  /-- 成り立てば、その先は問わない。 -/
  escape : W → Prop := fun _ => False

namespace Setting

variable {σ W α β : Type} (C : Setting σ W)

/-- 動作一つを行った後の世界。 -/
def after (w : W) (update : σ → σ) : W := C.put w (update (C.view w))

/-- 環境がどう割り込んでも、手続きは不変条件を保ち、終わったときには `post` が成り立つ。 -/
def Safe (post : α → W → Prop) : Prog σ α → W → Prop
  | .ret a, w => ∀ w', C.rely w w' → C.inv w' → post a w'
  | .fail, _ => C.mayFail
  | .act update next, w => ∀ w', C.rely w w' → C.inv w' → C.escape (C.after w' update) ∨
      C.inv (C.after w' update) ∧ Safe post (next (C.view w')) (C.after w' update)

/-- 環境が動いても成り立ち続ける主張。 -/
def StableAt (P : W → Prop) : Prop := ∀ w w', C.rely w w' → P w → P w'

variable {C} {post : α → W → Prop} {p : Prog σ α} {w : W}

theorem Safe.stable {w' : W} (h : C.Safe post p w) (hr : C.rely w w') : C.Safe post p w' := by
  cases p with
  | ret a => exact fun v hv => h v (C.trans hr hv)
  | fail => exact h
  | act update next => exact fun v hv => h v (C.trans hr hv)

theorem Safe.mono {post' : α → W → Prop} (h : C.Safe post p w)
    (himp : ∀ a w, C.inv w → post a w → post' a w) : C.Safe post' p w := by
  induction p generalizing w with
  | ret a => exact fun v hv hi => himp a v hi (h v hv hi)
  | fail => exact h
  | act update next ih => exact fun v hv hi => (h v hv hi).imp id fun h => ⟨h.1, ih _ h.2⟩

theorem Safe.bind {post' : β → W → Prop} {f : α → Prog σ β} (hi : C.inv w) (h : C.Safe post p w)
    (hf : ∀ a w, C.inv w → post a w → C.Safe post' (f a) w) : C.Safe post' (p >>= f) w := by
  show C.Safe post' (p.bind f) w
  induction p generalizing w with
  | ret a => exact hf a w hi (h w (C.refl w) hi)
  | fail => exact h
  | act update next ih => exact fun v hv hi => (h v hv hi).imp id fun h => ⟨h.1, ih _ h.1 h.2⟩

theorem Safe.ret {a : α} (hs : C.StableAt (post a)) (h : post a w) : C.Safe post (pure a) w :=
  fun w' hw _ => hs w w' hw h

/-- 動作一つの規則。割り込まれた後の世界について示せばよい。 -/
theorem Safe.atomic {f : σ → α × σ} (hs : ∀ a, C.StableAt (post a))
    (h : ∀ v, C.rely w v → C.inv v →
      C.inv (C.after v fun s => (f s).2) ∧ post (f (C.view v)).1 (C.after v fun s => (f s).2)) :
    C.Safe post (Prog.atomic f) w := by
  intro v hv hi
  obtain ⟨hinv, hpost⟩ := h v hv hi
  exact Or.inr ⟨hinv, fun u hu _ => hs _ _ _ hu hpost⟩

theorem Safe.read {f : σ → α} (hs : ∀ a, C.StableAt (post a))
    (h : ∀ v, C.rely w v → C.inv v → post (f (C.view v)) v) : C.Safe post (Prog.read f) w := by
  refine Safe.atomic hs fun v hv hi => ?_
  show C.inv (C.put v (C.view v)) ∧ post (f (C.view v)) (C.put v (C.view v))
  rw [C.put_view]
  exact ⟨hi, h v hv hi⟩

theorem Safe.attempt {f : σ → Option (α × σ)} (hs : ∀ a, C.StableAt (post a))
    (hfail : ∀ v, C.rely w v → C.inv v → f (C.view v) = none → C.mayFail)
    (h : ∀ v a s, C.rely w v → C.inv v → f (C.view v) = some (a, s) →
      C.inv (C.put v s) ∧ post a (C.put v s)) : C.Safe post (Prog.attempt f) w := by
  intro v hv hi
  dsimp only [after]
  cases hf : f (C.view v) with
  | none =>
    rw [Option.map_none, Option.getD_none, C.put_view]
    exact Or.inr ⟨hi, hfail v hv hi hf⟩
  | some x =>
    obtain ⟨hinv, hpost⟩ := h v x.1 x.2 hv hi hf
    exact Or.inr ⟨hinv, fun u hu _ => hs _ _ _ hu hpost⟩

theorem Safe.orFail {x : Option α} (hs : ∀ a, C.StableAt (post a)) (hfail : x = none → C.mayFail)
    (h : ∀ a, x = some a → post a w) : C.Safe post (Prog.orFail x) w := by
  cases x with
  | none => exact hfail rfl
  | some a => exact Safe.ret (hs a) (h a rfl)

/-- 動作一つで `escape` に出る規則。 -/
theorem Safe.leave {f : σ → α × σ}
    (h : ∀ v, C.rely w v → C.inv v → C.escape (C.after v fun s => (f s).2)) :
    C.Safe post (Prog.atomic f) w := fun v hv hi => Or.inl (h v hv hi)

/-- `f` の見るものに触れない手続きの規則。`P` は `f` を保つ動作の前後で変わらなければよい。 -/
theorem Safe.of_keeps {γ : Type} {f : σ → γ} {P : W → Prop} (hk : p.Keeps f) (hfail : C.mayFail)
    (hs : C.StableAt P)
    (hstep : ∀ v update, C.inv v → P v → f (update (C.view v)) = f (C.view v) →
      C.inv (C.after v update) ∧ P (C.after v update)) (h : P w) : C.Safe (fun _ => P) p w := by
  induction p generalizing w with
  | ret a => exact fun v hv _ => hs w v hv h
  | fail => exact hfail
  | act update next ih =>
    intro v hv hi
    obtain ⟨hinv, hP⟩ := hstep v update hi (hs w v hv h) (hk.1 _)
    exact Or.inr ⟨hinv, ih _ (hk.2 _) hP⟩

/-- 列を順に処理する規則。`I` は残りの列ごとの主張である。 -/
theorem Safe.forM {f : β → Prog σ Unit} {I : List β → W → Prop} (hs : ∀ l, C.StableAt (I l))
    (hstep : ∀ b l w, C.inv w → I (b :: l) w → C.Safe (fun _ => I l) (f b) w) {l : List β}
    (hi : C.inv w) (h : I l w) : C.Safe (fun _ => I []) (l.forM f) w := by
  induction l generalizing w with
  | nil => exact Safe.ret (hs []) h
  | cons b rest ih =>
    show C.Safe _ (f b >>= fun _ => rest.forM f) w
    exact Safe.bind hi (hstep b rest w hi h) fun _ w hi h => ih hi h

end Setting

/-! ## 割り込みのない世界 -/

/-- 共有状態だけの世界。手続きは失敗しない。`rely` は証明の中で見逃してよい違いである。 -/
def Setting.alone {σ : Type} (inv : σ → Prop) (rely : σ → σ → Prop) (refl : ∀ s, rely s s)
    (trans : ∀ {a b c}, rely a b → rely b c → rely a c) : Setting σ σ where
  view := id
  put := fun _ s => s
  put_view := id_eq
  inv := inv
  rely := rely
  refl := refl
  trans := trans
  mayFail := False

/-- 割り込みがなければ、手続きは最後まで走って `post` を満たす。 -/
theorem Setting.run_of_safe {σ α : Type} {inv : σ → Prop} {rely : σ → σ → Prop}
    {refl : ∀ s, rely s s} {trans : ∀ {a b c}, rely a b → rely b c → rely a c}
    {post : α → σ → Prop} {p : Prog σ α} {s : σ} (hi : inv s)
    (h : (Setting.alone inv rely refl trans).Safe post p s) :
    ∃ a, (p.run s).1 = some a ∧ inv (p.run s).2 ∧ post a (p.run s).2 := by
  induction p generalizing s with
  | ret a => exact ⟨a, rfl, hi, h s (refl s) hi⟩
  | fail => exact h.elim
  | act update next ih =>
    obtain ⟨hinv, hnext⟩ := (h s (refl s) hi).resolve_left id
    exact ih _ hinv hnext

/-- 失敗しうる手続きも、最後まで走ったなら `post` を満たす。 -/
theorem Setting.post_of_run {σ α : Type} {C : Setting σ σ} (hview : ∀ s, C.view s = s)
    (hput : ∀ s t, C.put s t = t) (hesc : ∀ s, ¬ C.escape s) {post : α → σ → Prop} {p : Prog σ α}
    {s s' : σ} {a : α} (hi : C.inv s) (h : C.Safe post p s) (hrun : p.run s = (some a, s')) :
    post a s' := by
  induction p generalizing s with
  | ret b =>
    cases hrun
    exact h _ (C.refl _) hi
  | fail => cases hrun
  | act update next ih =>
    obtain ⟨hinv, hnext⟩ := (h s (C.refl s) hi).resolve_left (hesc _)
    unfold Setting.after at hinv hnext
    rw [hput, hview] at hinv hnext
    exact ih s hinv hnext hrun

end Interleaving
