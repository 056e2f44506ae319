import SecretBunker.Crypto.Plain
import SecretBunker.Operator.Reconcile

/-!
# 一つの CR の経過

CR の spec は誰かが書き換え、mirror は同期で動き、operator は同じ CR の reconcile を一つずつ走らせる。
reconcile は始めに受け取った CR を最後まで使い、どの API 呼び出しの前後でも打ち切られうる。
CR はすでに finalizer を持つものとし、Cleanup の腕が `Ok` を返せば finalizer が外れて CR は消える。

経過の全体について述べるには、間に入る client の動きと手続きの始まりだけを調べればよい
（`under_exec`）。
-/

namespace SecretBunker

open Interleaving Ordered

namespace Operator

/-- finalizer の二つの腕。 -/
inductive Arm where
  | apply
  | cleanup
  deriving DecidableEq

/-- 走っている reconcile。`cr` は始めに受け取った CR である。 -/
structure Task where
  arm : Arm
  cr : BunkerSecret
  rest : Prog World (Except OperatorError Action)

structure State where
  world : World
  task : Option Task

/-- reconcile のほかに API server と replica を動かすもの。 -/
inductive Client where
  | edit (spec : BunkerSecretSpec)
  | delete
  /-- ほかの client が Secret を書き換え、または消す。 -/
  | secret (name : String) (stored : Option StoredSecret)
  | sync (mirror : Db) (lastSynced : Option Int) (disconnectedFor : Option Nat)
  | tick (now : Int) (recorderUp : Bool)

inductive Act where
  | client (c : Client)
  /-- 次の reconcile を始める。 -/
  | reconcile
  /-- 手続きの動作を一つ行う。 -/
  | advance
  /-- API 呼び出しが失敗するか、process が落ちる。 -/
  | stop

/-- Secret に残る、この uid の ownerReference。 -/
def ownerOf (uid : String) (stored : Option StoredSecret) : Option (Field OwnerReference) :=
  stored.bind (·.ownerReferences.get? uid)

variable (cfg : Config) (name uid : String)

/-- CR を書き換える。 -/
def World.mapCr (w : World) (f : BunkerSecret → BunkerSecret) : World :=
  { w with crs := Function.update w.crs name ((w.crs name).map f) }

/-- ほかの client は、この CR を指す ownerReference を書き足さない。 -/
def World.client (w : World) : Client → World
  | .edit spec => w.mapCr name fun cr => { cr with spec := spec, generation := cr.generation + 1 }
  | .delete => w.mapCr name fun cr => { cr with deleting := true }
  | .secret n stored =>
    if ownerOf uid stored = none ∨ ownerOf uid stored = ownerOf uid (w.secrets n) then
      { w with secrets := Function.update w.secrets n stored }
    else w
  | .sync mirror lastSynced disconnectedFor => { w with mirror, lastSynced, disconnectedFor }
  | .tick now recorderUp => { w with now, recorderUp }

/-- 受け取った CR についての reconcile。 -/
def Task.begin (cr : BunkerSecret) : Task :=
  if cr.deleting then ⟨.cleanup, cr, cleanupBunkerSecret cr⟩
  else ⟨.apply, cr, applyBunkerSecret cfg cr⟩

namespace State

def advance (s : State) : State :=
  match s.task with
  | none => s
  | some t =>
    match t.rest with
    | .act update next => ⟨update s.world, some { t with rest := next s.world }⟩
    | .fail => ⟨s.world, none⟩
    | .ret result =>
      match t.arm, result with
      | .cleanup, .ok _ => ⟨{ s.world with crs := Function.update s.world.crs name none }, none⟩
      | _, _ => ⟨s.world, none⟩

def step (s : State) : Act → State
  | .client c => ⟨s.world.client name uid c, s.task⟩
  | .reconcile =>
    match s.task, s.world.crs name with
    | none, some cr => ⟨s.world, some (Task.begin cfg cr)⟩
    | _, _ => s
  | .advance => s.advance name
  | .stop => ⟨s.world, none⟩

def exec (s : State) (acts : List Act) : State := acts.foldl (step cfg name uid) s

/-- どの一歩も、その直前の状態で条件を満たす。 -/
def Follows (ok : State → Act → Prop) : State → List Act → Prop
  | _, [] => True
  | s, a :: rest => ok s a ∧ Follows ok (s.step cfg name uid a) rest

instance decidableFollows (ok : State → Act → Prop) [∀ s a, Decidable (ok s a)] :
    ∀ s acts, Decidable (Follows cfg name uid ok s acts)
  | _, [] => .isTrue trivial
  | s, a :: rest =>
    have := decidableFollows ok (s.step cfg name uid a) rest
    inferInstanceAs (Decidable (ok s a ∧ _))

/-- Cleanup の腕が `Ok` を返したところの CR。 -/
def cleaned (s : State) : Option BunkerSecret :=
  match s.task with
  | some ⟨.cleanup, cr, .ret (.ok _)⟩ => some cr
  | _ => none

/-! ## 経過の全体 -/

/-- 走っている reconcile の腕と、その受け取った CR。 -/
def running (s : State) : Option (Arm × BunkerSecret) := s.task.map fun t => (t.arm, t.cr)

/-- 手続きの約束 `post` を果たしながら走っている。保つことは、走っている reconcile によって変わりうる。 -/
def Under (C : Option (Arm × BunkerSecret) → Setting World World)
    (post : Arm → BunkerSecret → World → Prop) (s : State) : Prop :=
  (C s.running).inv s.world ∧
    ∀ t, s.task = some t → (C s.running).Safe (fun _ => post t.arm t.cr) t.rest s.world

end State

/-- 走っている reconcile が終わる一歩。 -/
def Task.Ends (t : Task) : Act → Prop
  | .stop => True
  | .advance =>
    match t.rest with
    | .act .. => False
    | _ => True
  | _ => False

instance (t : Task) : (a : Act) → Decidable (t.Ends a)
  | .stop => .isTrue trivial
  | .advance =>
    match h : t.rest with
    | .act .. => .isFalse (by simp [Task.Ends, h])
    | .ret _ | .fail => .isTrue (by simp [Task.Ends, h])
  | .client _ | .reconcile => .isFalse id

/-- client の動きと、手続きの始まりと終わりについて調べること。 -/
structure Rules (C : Option (Arm × BunkerSecret) → Setting World World)
    (post : Arm → BunkerSecret → World → Prop) (ok : State → Act → Prop) : Prop where
  view : ∀ k, (C k).view = id
  put : ∀ k, (C k).put = fun _ w => w
  escape : ∀ k w, ¬ (C k).escape w
  client : ∀ s c, ok s (.client c) → (C s.running).inv s.world →
    (C s.running).inv (s.world.client name uid c) ∧
      (C s.running).rely s.world (s.world.client name uid c)
  apply : ∀ w cr, ok ⟨w, none⟩ .reconcile → (C none).inv w → w.crs name = some cr →
    cr.deleting = false → (C (some (.apply, cr))).inv w ∧
      (C (some (.apply, cr))).Safe (fun _ => post .apply cr) (applyBunkerSecret cfg cr) w
  cleanup : ∀ w cr, ok ⟨w, none⟩ .reconcile → (C none).inv w → w.crs name = some cr →
    cr.deleting = true → (C (some (.cleanup, cr))).inv w ∧
      (C (some (.cleanup, cr))).Safe (fun _ => post .cleanup cr) (cleanupBunkerSecret cr) w
  leave : ∀ w t a, ok ⟨w, some t⟩ a → t.Ends a → (C (some (t.arm, t.cr))).inv w → (C none).inv w
  vanish : ∀ w, (C none).inv w → (C none).inv { w with crs := Function.update w.crs name none }

namespace State

variable {cfg name uid} {C : Option (Arm × BunkerSecret) → Setting World World}
  {post : Arm → BunkerSecret → World → Prop} {ok : State → Act → Prop}

/-- 走っている task の一歩は、規律の下にある。 -/
theorem under_advance (R : Rules cfg name uid C post ok) {s : State} (hok : ok s .advance)
    (h : s.Under C post) : (s.advance name).Under C post := by
  obtain ⟨w, task⟩ := s
  obtain ⟨hinv, hsafe⟩ := h
  have hgone : ∀ w', (C none).inv w' → (State.mk w' none).Under C post :=
    fun w' h => ⟨h, fun _ ht => nomatch ht⟩
  cases task with
  | none => exact ⟨hinv, hsafe⟩
  | some t =>
    obtain ⟨arm, cr, rest⟩ := t
    cases rest with
    | act update next =>
      have hrun : (C (some (arm, cr))).Safe (fun _ => post arm cr) (.act update next) w :=
        hsafe _ rfl
      have hact := hrun w ((C _).refl w) hinv
      have hafter : (C (some (arm, cr))).after w update = update w := by
        unfold Setting.after
        rw [R.put, R.view]
        rfl
      rw [hafter, R.view] at hact
      obtain ⟨hinv', hnext⟩ := hact.resolve_left (R.escape _ _)
      refine ⟨hinv', fun t ht => ?_⟩
      cases ht
      exact hnext
    | fail => exact hgone w (R.leave w _ _ hok trivial hinv)
    | ret result =>
      have hleft := R.leave w _ _ hok trivial hinv
      cases arm with
      | apply => exact hgone w hleft
      | cleanup =>
        cases result with
        | ok a => exact hgone _ (R.vanish w hleft)
        | error e => exact hgone w hleft

/-- どの一歩も、規律の下にある。 -/
theorem under_step (R : Rules cfg name uid C post ok) {s : State} (a : Act) (hok : ok s a)
    (h : s.Under C post) : (s.step cfg name uid a).Under C post := by
  cases a with
  | client c =>
    obtain ⟨hinv, hrely⟩ := R.client s c hok h.1
    exact ⟨hinv, fun t ht => (h.2 t ht).stable hrely⟩
  | reconcile =>
    obtain ⟨w, task⟩ := s
    cases task with
    | some t => exact h
    | none =>
      cases hcr : w.crs name with
      | none =>
        simp only [step, hcr]
        exact h
      | some cr =>
        simp only [step, hcr, Task.begin]
        split
        · next hd =>
          obtain ⟨hinv, hsafe⟩ := R.cleanup w cr hok h.1 hcr hd
          exact ⟨hinv, fun t ht => by cases ht; exact hsafe⟩
        · next hd =>
          obtain ⟨hinv, hsafe⟩ := R.apply w cr hok h.1 hcr (Bool.not_eq_true _ ▸ hd)
          exact ⟨hinv, fun t ht => by cases ht; exact hsafe⟩
  | advance => exact under_advance R hok h
  | stop =>
    obtain ⟨w, task⟩ := s
    cases task with
    | none => exact h
    | some t => exact ⟨R.leave w t _ hok trivial h.1, fun _ ht => nomatch ht⟩

/-- **条件を満たす経過では、どの状態でも約束が保たれる。** -/
theorem under_exec (R : Rules cfg name uid C post ok) {s : State} {acts : List Act}
    (hok : Follows cfg name uid ok s acts) (h : s.Under C post) :
    (s.exec cfg name uid acts).Under C post := by
  induction acts generalizing s with
  | nil => exact h
  | cons a rest ih => exact ih hok.2 (under_step R a hok.1 h)

/-- 返したところでは、約束が果たされている。 -/
theorem Under.cleaned {s : State} {cr : BunkerSecret} (h : s.Under C post)
    (hc : s.cleaned = some cr) : post .cleanup cr s.world := by
  obtain ⟨w, task⟩ := s
  unfold State.cleaned at hc
  split at hc
  · next ht =>
    cases hc
    exact h.2 _ ht w ((C _).refl w) h.1
  · cases hc

end State

/-! ## 始まり -/

/-- CR を指す Secret は一つもない。 -/
def Unowned (w : World) : Prop := ∀ n, ownerOf uid (w.secrets n) = none

/-- できたばかりの CR。status は空で、まだどの Secret もこの uid を指さず、operator は何もしていない。 -/
structure Fresh (name uid : String) (w : World) : Prop where
  metadata : ∀ cr, w.crs name = some cr → cr.name = name ∧ cr.uid = some uid
  status : ∀ cr, w.crs name = some cr → cr.status = none
  unowned : Unowned uid w
  trace : w.trace = []

/-! ## 例に使う CR -/

/-- 何も読まない書式。 -/
def plainFormats : Formats where
  Value := Unit
  fromSlice _ := .ok ()
  asObject _ := some []
  pointer v _ := some v
  asStr _ := none
  toString _ := "null"
  debug _ := "[]"
  timestamp := some

def sampleConfig : Config := ⟨plain, plainFormats, "r", ⟨"k"⟩, 60, 300⟩

/-- 名前だけを決める spec。 -/
def sampleSpec (target : String) : BunkerSecretSpec := { target := some ⟨some target, none⟩ }

def sampleCr : BunkerSecret := ⟨"prod", "app", some "u", 1, false, sampleSpec "a", none⟩

/-- 同期の済んだ replica と、できたばかりの CR。 -/
def sampleWorld : World where
  crs n := if n = "app" then some sampleCr else none
  secrets _ := none
  mirror := .empty
  lastSynced := some 0
  disconnectedFor := none
  now := 0
  recorderUp := true
  trace := []

theorem fresh_sampleWorld : Fresh "app" "u" sampleWorld where
  metadata cr hcr := by
    obtain rfl : sampleCr = cr := Option.some.inj hcr
    exact ⟨rfl, rfl⟩
  status cr hcr := by
    obtain rfl : sampleCr = cr := Option.some.inj hcr
    rfl
  unowned _ := rfl
  trace := rfl

/-- reconcile を始めて、`n` 歩だけ進める。 -/
def reconcileFor (n : Nat) : List Act := .reconcile :: List.replicate n .advance

end Operator

end SecretBunker
