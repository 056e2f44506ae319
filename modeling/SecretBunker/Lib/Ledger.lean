import SecretBunker.Lib.Program

/-!
# 書き込みの後に知らせる手続き

共有状態を書き換え、その変化を後から event として流す手続きの規則。
書き込みと event の間には、まだ流していない event の列 `owed` が残る。
`owed` は次の動作が流すものであり、流し終えるまで手続きはほかの動作をしない。
-/

namespace Interleaving

/-- 環境 `rely` がどう割り込んでも、手続きは次に `owed` を順に流す。 -/
def Prog.Emits {σ ε α : Type} (emit : ε → σ → σ) (rely : σ → σ → Prop) :
    Prog σ α → List ε → σ → Prop
  | _, [], _ => True
  | .act update next, e :: rest, s =>
    update = emit e ∧ ∀ s', rely s s' → Emits emit rely (next s') rest (emit e s')
  | _, _ :: _, _ => False

/-! ## 書き込みと event の対応 -/

/-- 書き込みと event の対応。`covers s s' owed` は、`s` から `s'` への書き込みを `owed` が知らせること。 -/
structure Herald (σ ε : Type) where
  emit : ε → σ → σ
  covers : σ → σ → List ε → Prop
  covers_refl : ∀ s, covers s s []
  rely : σ → σ → Prop
  refl : ∀ s, rely s s
  trans : ∀ {a b c}, rely a b → rely b c → rely a c

namespace Herald

variable {σ ε α β : Type} (H : Herald σ ε)

/-- 手続きは `owed` を流し、その後の書き込みもその都度すべて知らせて、`post` で終わる。 -/
def Runs (post : α → σ → Prop) : Prog σ α → List ε → σ → Prop
  | .ret a, owed, s => owed = [] ∧ ∀ s', H.rely s s' → post a s'
  | .fail, owed, _ => owed = []
  | .act update next, [], s => ∀ s', H.rely s s' →
      ∃ owed, H.covers s' (update s') owed ∧ Runs post (next s') owed (update s')
  | .act update next, e :: rest, s => update = H.emit e ∧ ∀ s', H.rely s s' →
      Runs post (next s') rest (H.emit e s')

/-- 環境が動いても成り立ち続ける主張。 -/
def StableAt (P : σ → Prop) : Prop := ∀ s s', H.rely s s' → P s → P s'

variable {H} {post : α → σ → Prop} {p : Prog σ α} {owed : List ε} {s s' : σ}

theorem Runs.stable (h : H.Runs post p owed s) (hr : H.rely s s') : H.Runs post p owed s' := by
  cases p with
  | ret a => exact ⟨h.1, fun v hv => h.2 v (H.trans hr hv)⟩
  | fail => exact h
  | act update next =>
    cases owed with
    | nil => exact fun v hv => h v (H.trans hr hv)
    | cons e rest => exact ⟨h.1, fun v hv => h.2 v (H.trans hr hv)⟩

/-- 借りは、次に変える前に流される。 -/
theorem Runs.emits (h : H.Runs post p owed s) : p.Emits H.emit H.rely owed s := by
  induction p generalizing owed s with
  | ret a =>
    rw [h.1]
    trivial
  | fail =>
    rw [show owed = [] from h]
    trivial
  | act update next ih =>
    cases owed with
    | nil => trivial
    | cons e rest => exact ⟨h.1, fun v hv => ih v (h.2 v hv)⟩

theorem Runs.bind {post' : β → σ → Prop} {f : α → Prog σ β} (h : H.Runs post p owed s)
    (hf : ∀ a s, post a s → H.Runs post' (f a) [] s) : H.Runs post' (p >>= f) owed s := by
  show H.Runs post' (p.bind f) owed s
  induction p generalizing owed s with
  | ret a =>
    obtain ⟨rfl, hpost⟩ := h
    exact hf a s (hpost s (H.refl s))
  | fail => exact h
  | act update next ih =>
    cases owed with
    | nil =>
      intro v hv
      obtain ⟨owed', hc, h'⟩ := h v hv
      exact ⟨owed', hc, ih v h'⟩
    | cons e rest => exact ⟨h.1, fun v hv => ih v (h.2 v hv)⟩

theorem Runs.ret {a : α} (hp : H.StableAt (post a)) (h : post a s) :
    H.Runs post (pure a) [] s := ⟨rfl, fun v hv => hp s v hv h⟩

/-- 書き込みの規則。書き込んだ変化は、続きが流す。 -/
theorem Runs.commit {f : σ → Option (β × σ)} {k : β → Prog σ α}
    (h : ∀ v, H.rely s v → ∀ b u, f v = some (b, u) →
      ∃ owed, H.covers v u owed ∧ H.Runs post (k b) owed u) :
    H.Runs post (Prog.attempt f >>= k) [] s := by
  intro v hv
  dsimp only
  cases hf : f v with
  | none => exact ⟨[], H.covers_refl v, rfl⟩
  | some x => exact h v hv x.1 x.2 hf

/-- 流すことのない動作の規則。 -/
theorem Runs.atomic {f : σ → α × σ} (hp : ∀ a, H.StableAt (post a))
    (h : ∀ v, H.rely s v → H.covers v (f v).2 [] ∧ post (f v).1 (f v).2) :
    H.Runs post (Prog.atomic f) [] s := by
  intro v hv
  obtain ⟨hc, ha⟩ := h v hv
  exact ⟨[], hc, rfl, fun w hw => hp _ _ _ hw ha⟩

theorem Runs.attempt {f : σ → Option (α × σ)} (hp : ∀ a, H.StableAt (post a))
    (h : ∀ v, H.rely s v → ∀ a u, f v = some (a, u) → H.covers v u [] ∧ post a u) :
    H.Runs post (Prog.attempt f) [] s := by
  intro v hv
  dsimp only
  cases hf : f v with
  | none => exact ⟨[], H.covers_refl v, rfl⟩
  | some x =>
    obtain ⟨hc, ha⟩ := h v hv x.1 x.2 hf
    exact ⟨[], hc, rfl, fun w hw => hp _ _ _ hw ha⟩

theorem Runs.orFail {x : Option α} (hp : ∀ a, H.StableAt (post a))
    (h : ∀ a, x = some a → post a s) : H.Runs post (Prog.orFail x) [] s := by
  cases x with
  | none => rfl
  | some a => exact Runs.ret (hp a) (h a rfl)

/-- 借りをすべて流して続ける。 -/
theorem Runs.emitAll {k : Unit → Prog σ α} (h : ∀ v, H.Runs post (k ()) [] v) :
    H.Runs post ((owed.forM fun e => Prog.modify (H.emit e)) >>= k) owed s := by
  induction owed generalizing s with
  | nil => exact h s
  | cons e rest ih => exact ⟨rfl, fun _ _ => ih⟩

theorem Runs.forM {f : β → Prog σ Unit} (h : ∀ b s, H.Runs (fun _ _ => True) (f b) [] s)
    (l : List β) : H.Runs (fun _ _ => True) (l.forM f) [] s := by
  induction l generalizing s with
  | nil => exact Runs.ret (fun _ _ _ _ => trivial) trivial
  | cons b rest ih => exact (h b s).bind fun _ _ _ => ih

end Herald

/-! ## event が語り尽くすこと -/

/-- 変化を event に流す決まり。`settled owed s` は、`owed` まで流せば event が `s` を語り尽くすこと。 -/
structure Ledger (σ ε : Type) where
  emit : ε → σ → σ
  settled : List ε → σ → Prop
  settled_emit : ∀ {e rest s}, settled (e :: rest) s → settled rest (emit e s)
  rely : σ → σ → Prop
  refl : ∀ s, rely s s
  trans : ∀ {a b c}, rely a b → rely b c → rely a c
  stable : ∀ {owed s s'}, rely s s' → settled owed s → settled owed s'

namespace Ledger

variable {σ ε α β : Type} (L : Ledger σ ε)

/-- 手続きは `owed` を流し、その後の書き込みもすべて流し切って、`post` で終わる。 -/
def Pays (post : α → σ → Prop) : Prog σ α → List ε → σ → Prop
  | .ret a, owed, s => owed = [] ∧ ∀ s', L.rely s s' → L.settled [] s' → post a s'
  | .fail, owed, _ => owed = []
  | .act update next, [], s => ∀ s', L.rely s s' → L.settled [] s' →
      ∃ owed, L.settled owed (update s') ∧ Pays post (next s') owed (update s')
  | .act update next, e :: rest, s => update = L.emit e ∧ ∀ s', L.rely s s' →
      L.settled (e :: rest) s' → Pays post (next s') rest (L.emit e s')

variable {L} {post : α → σ → Prop} {p : Prog σ α} {owed : List ε} {s s' : σ}

theorem Pays.stable (h : L.Pays post p owed s) (hr : L.rely s s') : L.Pays post p owed s' := by
  cases p with
  | ret a => exact ⟨h.1, fun v hv => h.2 v (L.trans hr hv)⟩
  | fail => exact h
  | act update next =>
    cases owed with
    | nil => exact fun v hv => h v (L.trans hr hv)
    | cons e rest => exact ⟨h.1, fun v hv => h.2 v (L.trans hr hv)⟩

/-- 清算できる借りは、流される。 -/
theorem Pays.emits (hs : L.settled owed s) (h : L.Pays post p owed s) :
    p.Emits L.emit L.rely owed s := by
  induction p generalizing owed s with
  | ret a =>
    rw [h.1]
    trivial
  | fail =>
    rw [show owed = [] from h]
    trivial
  | act update next ih =>
    cases owed with
    | nil => trivial
    | cons e rest =>
      refine ⟨h.1, fun v hv => ?_⟩
      have hv' := L.stable hv hs
      exact ih v (L.settled_emit hv') (h.2 v hv hv')

/-- 書き込みごとに知らせる手続きは、始めからの変化も語り尽くす。 -/
theorem Pays.ofRuns {H : Herald σ ε} (hemit : H.emit = L.emit)
    (hrely : ∀ {s s'}, L.rely s s' → H.rely s s')
    (hcovers : ∀ {s s' owed}, H.covers s s' owed → L.settled [] s → L.settled owed s')
    (h : H.Runs post p owed s) : L.Pays post p owed s := by
  induction p generalizing owed s with
  | ret a => exact ⟨h.1, fun v hv _ => h.2 v (hrely hv)⟩
  | fail => exact h
  | act update next ih =>
    cases owed with
    | nil =>
      intro v hv hset
      obtain ⟨owed', hc, h'⟩ := h v (hrely hv)
      exact ⟨owed', hcovers hc hset, ih v h'⟩
    | cons e rest =>
      refine ⟨h.1.trans (congrFun hemit e), fun v hv _ => ?_⟩
      have hnext := ih v (h.2 v (hrely hv))
      rwa [hemit] at hnext

end Ledger

end Interleaving
