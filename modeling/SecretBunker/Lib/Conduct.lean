import SecretBunker.Lib.Program

/-!
# 割り込まれる手続きの作法

手続きの動作一つごとに、その前後の状態が満たすこと（`guar`）を述べる規則。前後の条件には、手続きが
それまでに行った動作を使ってよい。`rely` は、手続きの前の動作の後から次の動作の前までに、ほかの当事者が
動かしてよい幅である。次の動作が何に触れるかによって、その幅は変わりうる。
-/

namespace Interleaving

/-- 手続きの作法。 -/
structure Manners (σ : Type) where
  /-- 動作 `update` の前に、ほかの当事者が動かしてよい幅。 -/
  rely : (σ → σ) → σ → σ → Prop
  /-- 手続きのそれまでの動作の下で、動作の前後が満たすこと。 -/
  guar : List (σ × σ) → σ → σ → Prop

namespace Manners

variable {σ α β : Type} (M : Manners σ)

/-- 前の動作の後から、次の動作 `update` の前まで、ほかの当事者は幅を守った。 -/
def Admits (steps : List (σ × σ)) (update : σ → σ) (w : σ) : Prop :=
  ∀ last, steps.getLast? = some last → M.rely update last.2 w

/-- これまでの動作 `steps` に続けて、手続きは作法を守り、終わったときには `post` が成り立つ。 -/
def Heeds (post : List (σ × σ) → α → Prop) : List (σ × σ) → Prog σ α → Prop
  | steps, .ret a => post steps a
  | _, .fail => True
  | steps, .act update next => ∀ w, M.Admits steps update w →
      M.guar steps w (update w) ∧ Heeds post (steps ++ [(w, update w)]) (next w)

variable {M} {post : List (σ × σ) → α → Prop} {steps : List (σ × σ)}

theorem Heeds.bind {post' : List (σ × σ) → β → Prop} {p : Prog σ α} {f : α → Prog σ β}
    (h : M.Heeds post steps p)
    (hf : ∀ steps a, post steps a → M.Heeds post' steps (f a)) : M.Heeds post' steps (p >>= f) := by
  show M.Heeds post' steps (p.bind f)
  induction p generalizing steps with
  | ret a => exact hf steps a h
  | fail => trivial
  | act update next ih => exact fun w hw => ⟨(h w hw).1, ih w (h w hw).2⟩

/-- 動作一つの規則。 -/
theorem Heeds.atomic {f : σ → α × σ}
    (h : ∀ w, M.Admits steps (fun s => (f s).2) w →
      M.guar steps w (f w).2 ∧ post (steps ++ [(w, (f w).2)]) (f w).1) :
    M.Heeds post steps (Prog.atomic f) := h

/-- 読むだけの動作の後は、読んだ時の状態を知って続ける。 -/
theorem Heeds.read_bind {f : σ → β} {k : β → Prog σ α} (hrefl : ∀ w, M.guar steps w w)
    (h : ∀ g, M.Heeds post (steps ++ [(g, g)]) (k (f g))) :
    M.Heeds post steps (Prog.read f >>= k) := fun g _ => ⟨hrefl g, h g⟩

theorem Heeds.attempt {f : σ → Option (α × σ)}
    (hfail : ∀ w, f w = none → M.guar steps w w)
    (h : ∀ w a w', M.Admits steps (fun s => ((f s).map Prod.snd).getD s) w → f w = some (a, w') →
      M.guar steps w w' ∧ post (steps ++ [(w, w')]) a) :
    M.Heeds post steps (Prog.attempt f) := by
  intro w hw
  dsimp only
  cases hf : f w with
  | none => exact ⟨hfail w hf, trivial⟩
  | some x => exact h w x.1 x.2 hw hf

theorem Heeds.orFail_bind {x : Option β} {k : β → Prog σ α}
    (h : ∀ b, x = some b → M.Heeds post steps (k b)) :
    M.Heeds post steps (Prog.orFail x >>= k) := by
  cases x with
  | none => trivial
  | some b => exact h b rfl

/-- `f` の見るものを変えない手続き。それまでの動作について言えたことは、終わった後にも言える。 -/
theorem Heeds.of_keeps {γ : Type} {f : σ → γ} {p : Prog σ α} {P : List (σ × σ) → Prop}
    (hk : p.Keeps f) (hguar : ∀ steps w w', f w' = f w → M.guar steps w w')
    (hP : ∀ steps w w', P steps → P (steps ++ [(w, w')])) (h : P steps) :
    M.Heeds (fun steps _ => P steps) steps p := by
  induction p generalizing steps with
  | ret a => exact h
  | fail => trivial
  | act update next ih =>
    exact fun w _ => ⟨hguar steps w _ (hk.1 w), ih w (hk.2 w) (hP steps w _ h)⟩

end Manners

end Interleaving
