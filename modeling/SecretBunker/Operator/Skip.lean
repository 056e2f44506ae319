import SecretBunker.Operator.Freeze
import SecretBunker.Operator.Settle

/-!
# 書き込みを見送るとき

`apply_bunker_secret` は、GET した target の中身と render した中身を hash で比べ、同じなら書かない。
hash の入力は中身をすべて区別するので、sha256 が単射なら、見送るのは data があってそれが render と
一致するとき、かつそのときに限る。

reconcile の残りは、これまでの動作の前の状態の列だけで決まる（`Tracked`）。比べるのは、同期を確かめ、
render し、GET した三つの動作のちょうど次の動作である。
-/

namespace SecretBunker

open Interleaving Ordered

namespace Operator

/-! ## 足跡 -/

/-- target を書いたか、見送ったか。 -/
def Entry.decides : Entry → Bool
  | .applied _ _ | .skipped _ _ => true
  | _ => false

def World.verdicts (w : World) : List Entry := w.trace.filter Entry.decides

theorem verdicts_append (w : World) {e : Entry} (h : e.decides = false) :
    (w.trace ++ [e]).filter Entry.decides = w.verdicts := by
  simp [World.verdicts, h]

theorem unseen_verdicts : Unseen World.verdicts where
  warned := fun w _ _ _ => verdicts_append w rfl
  reported := fun w _ _ _ => verdicts_append w rfl

theorem keeps_retirePrevious (cr : BunkerSecret) : (retirePrevious cr).Keeps World.verdicts := by
  unfold retirePrevious
  split
  · split
    · trivial
    · refine keeps_cleanupTarget fun w s e he => verdicts_append w ?_
      rcases he with rfl | rfl
      · rfl
      · rfl
  · trivial

/-! ## 比べる動作 -/

/-- 読んだ Secret の data。 -/
def World.held (w : World) (cr : BunkerSecret) : Option (SortedMap String Bytes) :=
  (w.target cr).bind (·.data)

/-- 比べる直前まで来た：同期が済んでいて、`data` を render し、`get` で読んだ target は他人のもの
ではない。 -/
structure Poised (cfg : Config) (cr : BunkerSecret) (seen : List World)
    (data : SortedMap String Bytes) (desired : K8sSecret) (get : World) : Prop where
  reads : ∃ gate rendering, seen = [gate, rendering, get] ∧ gate.lastSynced.isSome = true ∧
    rendering.rendered cfg cr = .ok data
  vacant : Vacant cr get cr.targetName
  build : buildSecret cfg.prim cr data = some desired

/-- 書くか見送るかを決めた後。 -/
def World.resolve (w : World) (cr : BunkerSecret) (desired : K8sSecret) (skip : Bool) : World :=
  if skip then w.record (.skipped cr.generation cr.targetName)
  else { w with
    secrets := written cr desired w
    trace := w.trace ++ [.applied cr.generation desired] }

/-- 状態の列 `seen` の後の動作 `w`、`w'` が決めたこと。 -/
structure Resolved (cfg : Config) (cr : BunkerSecret) (seen : List World) (w w' : World) :
    Prop where
  /-- 見送るのは、data があってそれが render と一致するとき、かつそのときに限る。 -/
  decided : ∀ data desired get, Poised cfg cr seen data desired get → Fits data →
    (∀ d, get.held cr = some d → Fits d) → w' = w.resolve cr desired (get.held cr = some data)
  /-- ほかの動作では、書きもせず見送りもしない。 -/
  otherwise : (∀ data desired get, ¬ Poised cfg cr seen data desired get) →
    w'.verdicts = w.verdicts

variable {cfg : Config} {cr : BunkerSecret} {data : SortedMap String Bytes} {desired : K8sSecret}
  {get : World} {seen : List World}

/-- sha256 が単射なら、hash の比べは読んだ data の比べである。 -/
theorem contentHashOf_eq_iff (hsha : Function.Injective cfg.prim.sha256) (hfits : Fits data)
    (hheld : ∀ d, get.held cr = some d → Fits d) :
    contentHashOf cfg.prim (get.target cr) = some (contentHash cfg.prim data) ↔
      get.held cr = some data := by
  show (get.held cr).map (contentHash cfg.prim) = _ ↔ _
  cases hd : get.held cr with
  | none => simp
  | some d =>
    rw [Option.map_some, Option.some_inj, Option.some_inj]
    exact contentHash_eq_iff (hheld d hd) hfits fun h => hsha h

theorem update_writeSecret (hbuild : buildSecret cfg.prim cr data = some desired) {α : Type}
    (k : Unit → Prog World α) (w : World) :
    (writeSecret cfg cr (get.target cr) desired >>= k).update w =
      w.resolve cr desired
        (contentHashOf cfg.prim (get.target cr) = some (contentHash cfg.prim data)) := by
  obtain ⟨-, hhash⟩ := buildSecret_eq_some hbuild
  have hname := name_buildSecret hbuild
  unfold writeSecret World.resolve written
  rw [hhash, hname]
  by_cases hsame : contentHashOf cfg.prim (get.target cr) = some (contentHash cfg.prim data)
  · rw [if_pos hsame, if_pos (decide_eq_true hsame)]
    rfl
  · rw [if_neg hsame, if_neg (by simpa using hsame)]
    rfl

/-- 同期を確かめて render した後の残り。 -/
theorem after_rendered {gate rendering : World} (hgate : gate.lastSynced.isSome = true)
    (hdata : rendering.rendered cfg cr = .ok data) (seen : List World) :
    (applyBunkerSecret cfg cr).after (gate :: rendering :: seen) =
      (applyRendered cfg cr data).after seen := by
  unfold applyBunkerSecret
  rw [Prog.after_cons, Prog.next_read_bind, if_pos hgate, Prog.after_cons, Prog.next_read_bind]
  unfold World.rendered at hdata
  rw [hdata]

/-- 書いた後の残り。 -/
def finish (cfg : Config) (cr : BunkerSecret) (data : SortedMap String Bytes) :
    Prog World (Except OperatorError Action) := do
  retirePrevious cr
  reportSynced cfg cr data
  pure (.ok (.requeue cfg.resync))

/-- GET の後の残り。 -/
theorem next_applyRendered (cfg : Config) (cr : BunkerSecret) (data : SortedMap String Bytes)
    (get : World) :
    (applyRendered cfg cr data).next get =
      (if (get.target cr).any (fun s => !ownedBy s cr) then
        degrade cr .conflict ("Secret " ++ cr.nameSpace ++ "/" ++ cr.targetName ++
          " exists and is not owned by this BunkerSecret; refusing to adopt") >>=
            fun _ => pure (.ok (.requeue cfg.resync))
      else Prog.orFail (buildSecret cfg.prim cr data) >>= fun desired =>
        writeSecret cfg cr (get.target cr) desired >>= fun _ => finish cfg cr data) := rfl

theorem keeps_finish (cfg : Config) (cr : BunkerSecret) (data : SortedMap String Bytes) :
    (finish cfg cr data).Keeps World.verdicts :=
  (keeps_retirePrevious cr).bind fun _ =>
    (keeps_reportSynced unseen_verdicts cfg cr data).bind fun _ => trivial

/-- 書く動作の次からは、書きもせず見送りもしない。 -/
theorem keeps_next_write (existing : Option K8sSecret) (desired : K8sSecret) (w : World) :
    ((writeSecret cfg cr existing desired >>= fun _ => finish cfg cr data).next w).Keeps
      World.verdicts := by
  unfold writeSecret
  split
  · exact keeps_finish cfg cr data
  · exact keeps_finish cfg cr data

theorem verdicts_update_rendered (seen : List World)
    (h : ∀ desired get, seen = [get] → Vacant cr get cr.targetName →
      buildSecret cfg.prim cr data ≠ some desired) (w : World) :
    (((applyRendered cfg cr data).after seen).update w).verdicts = w.verdicts := by
  cases seen with
  | nil => rfl
  | cons get seen =>
    rw [Prog.after_cons, next_applyRendered]
    split
    · refine Prog.Obeys.update (Prog.Obeys.after ?_ seen) w
      exact (keeps_degrade unseen_verdicts cr _ _).bind fun _ => trivial
    · next hvacant =>
      replace hvacant := any_unowned_eq_false_iff.mp (Bool.eq_false_iff.mpr hvacant)
      cases hbuild : buildSecret cfg.prim cr data with
      | none => exact ((show Prog.Keeps World.verdicts Prog.fail from trivial).after seen).update w
      | some desired =>
        cases seen with
        | nil => exact absurd hbuild (h desired get rfl hvacant)
        | cons v seen => exact ((keeps_next_write (get.target cr) desired v).after seen).update w

/-- 比べる動作のほかは、書きもせず見送りもしない。 -/
theorem verdicts_update (seen : List World)
    (h : ∀ data desired get, ¬ Poised cfg cr seen data desired get) (w : World) :
    (((applyBunkerSecret cfg cr).after seen).update w).verdicts = w.verdicts := by
  cases seen with
  | nil => rfl
  | cons gate seen =>
    by_cases hgate : gate.lastSynced.isSome = true
    · cases seen with
      | nil =>
        unfold applyBunkerSecret
        rw [Prog.after_cons, Prog.next_read_bind, if_pos hgate]
        rfl
      | cons rendering seen =>
        cases hdata : rendering.rendered cfg cr with
        | error e =>
          unfold applyBunkerSecret
          rw [Prog.after_cons, Prog.next_read_bind, if_pos hgate, Prog.after_cons,
            Prog.next_read_bind]
          unfold World.rendered at hdata
          rw [hdata]
          exact ((keeps_handleRenderError unseen_verdicts cfg cr e).after seen).update w
        | ok data =>
          rw [after_rendered hgate hdata]
          refine verdicts_update_rendered seen (fun desired get hseen hvacant hbuild => ?_) w
          exact h data desired get ⟨⟨gate, rendering, by rw [hseen], hgate, hdata⟩, hvacant, hbuild⟩
    · unfold applyBunkerSecret
      rw [Prog.after_cons, Prog.next_read_bind, if_neg hgate]
      refine Prog.Obeys.update (Prog.Obeys.after ?_ seen) w
      exact (keeps_degrade unseen_verdicts cr _ _).bind fun _ => trivial

/-- **比べるのは、同期を確かめ、render し、GET した次の動作だけである。** -/
theorem resolved_after (hsha : Function.Injective cfg.prim.sha256) (seen : List World) (w : World) :
    Resolved cfg cr seen w (((applyBunkerSecret cfg cr).after seen).update w) where
  decided := by
    rintro data desired get ⟨⟨gate, rendering, rfl, hgate, hdata⟩, hvacant, hbuild⟩ hfits hheld
    rw [after_rendered hgate hdata]
    show ((applyRendered cfg cr data).next get).update w = _
    rw [next_applyRendered, any_unowned_eq_false_iff.mpr hvacant, if_neg Bool.false_ne_true, hbuild]
    refine (update_writeSecret hbuild (fun _ => finish cfg cr data) w).trans ?_
    simp only [contentHashOf_eq_iff hsha hfits hheld]
  otherwise := fun h => verdicts_update seen h w

/-! ## 経過 -/

namespace Trail

variable {name uid : String}

/-- Apply の腕の残りは、これまでの動作の前の状態の列で決まる。 -/
def Tracked (cfg : Config) (t : Trail) : Prop :=
  ∀ task, t.state.task = some task → task.arm = .apply →
    task.rest = (applyBunkerSecret cfg task.cr).after (t.steps.map Prod.fst)

/-- どの一歩も `Tracked` を保つ。 -/
theorem Tracked.step {t : Trail} (h : t.Tracked cfg) (a : Act) :
    (t.step cfg name uid a).Tracked cfg := by
  obtain ⟨⟨w, task⟩, steps⟩ := t
  cases a with
  | client c => exact h
  | stop =>
    intro task' htask
    cases htask
  | reconcile =>
    cases task with
    | some task => exact h
    | none =>
      intro task htask harm
      cases hcr : w.crs name with
      | none =>
        simp only [Trail.step, State.step, hcr] at htask
        cases htask
      | some cr =>
        simp only [Trail.step, State.step, hcr] at htask
        cases htask
        unfold Task.begin at harm ⊢
        split at harm
        · cases harm
        · next hd =>
          rw [if_neg hd]
          rfl
  | advance =>
    intro task' htask harm
    cases task with
    | none => cases htask
    | some task =>
      obtain ⟨arm, cr, rest⟩ := task
      cases rest with
      | ret result =>
        cases arm with
        | apply => cases htask
        | cleanup => cases result <;> cases htask
      | fail => cases htask
      | act update next =>
        cases htask
        show next w = Prog.after _ ((steps ++ [(w, update w)]).map Prod.fst)
        rw [List.map_append, Prog.after, List.foldl_append]
        exact congrArg (Prog.next · w) (h _ rfl harm)

theorem Tracked.exec {t : Trail} (h : t.Tracked cfg) (acts : List Act) :
    (t.exec cfg name uid acts).Tracked cfg := by
  induction acts generalizing t with
  | nil => exact h
  | cons a rest ih => exact ih (h.step a)

/-- Apply の腕の一歩は、残りの次の動作である。 -/
theorem world_advance {t : Trail} {task : Task} (htask : t.state.task = some task)
    (harm : task.arm = .apply) :
    (t.step cfg name uid .advance).state.world = task.rest.update t.state.world := by
  obtain ⟨⟨w, task'⟩, steps⟩ := t
  cases htask
  obtain ⟨arm, cr, rest⟩ := task
  cases harm
  cases rest with
  | ret result => rfl
  | fail => rfl
  | act update next => rfl

/-- **中身の hash は中身をすべて区別する。** 二つの中身が hash に渡す byte 列が同じなら、中身が同じで
ある。だから sha256 が単射なら、mirror や Secret を誰がどう動かしても、reconcile が書き込みを見送るのは、
GET した Secret に data があり、それが render した中身と等しいとき、かつそのときに限る。 -/
theorem contentHash_separates (cfg : Config) :
    (∀ a b, Fits a → Fits b → hashInput a = hashInput b → a = b) ∧
    (Function.Injective cfg.prim.sha256 → ∀ name uid w₀ acts task,
      (exec cfg name uid ⟨⟨w₀, none⟩, []⟩ acts).state.task = some task → task.arm = .apply →
      Resolved cfg task.cr ((exec cfg name uid ⟨⟨w₀, none⟩, []⟩ acts).steps.map Prod.fst)
        (exec cfg name uid ⟨⟨w₀, none⟩, []⟩ acts).state.world
        ((exec cfg name uid ⟨⟨w₀, none⟩, []⟩ acts).step cfg name uid .advance).state.world) := by
  refine ⟨fun a b => hashInput_inj, fun hsha name uid w₀ acts task htask harm => ?_⟩
  have hstart : Tracked cfg ⟨⟨w₀, none⟩, []⟩ := by
    intro task htask
    cases htask
  rw [world_advance htask harm, hstart.exec acts task htask harm]
  exact resolved_after hsha _ _

/-- render と同じ中身を持つ Secret。 -/
def matchedSecret : StoredSecret :=
  { editedSecret ⟨[1], true, false⟩ with data := SortedMap.empty.insert "PW" ⟨[7], true, false⟩ }

/-- 同期を確かめ、render し、GET した次の一歩は、中身が同じなので見送る。 -/
theorem contentHash_separates_sample :
    ∃ desired,
      ((exec settleConfig "app" "u" ⟨⟨settleWorld (some matchedSecret), none⟩, []⟩
        (reconcileFor 3)).step settleConfig "app" "u" .advance).state.world =
      (settleWorld (some matchedSecret)).resolve settleCr desired true := by
  have hsha : Function.Injective settleConfig.prim.sha256 := fun _ _ h => h
  have hrender : (settleWorld (some matchedSecret)).rendered settleConfig settleCr =
      .ok (SortedMap.empty.insert "PW" [7]) := rendered_settleMirror
  have hheld : (settleWorld (some matchedSecret)).held settleCr =
      some (SortedMap.empty.insert "PW" [7]) := by decide +kernel
  have hvacant : ((settleWorld (some matchedSecret)).target settleCr).any
      (fun s => !ownedBy s settleCr) = false := by decide +kernel
  have hfits : Fits (SortedMap.empty.insert "PW" [7]) := by unfold Fits; decide +kernel
  obtain ⟨desired, hbuild⟩ : ∃ desired, buildSecret settleConfig.prim settleCr
    (SortedMap.empty.insert "PW" [7]) = some desired := ⟨_, rfl⟩
  obtain ⟨task, htask, harm, hcr⟩ : ∃ task, (exec settleConfig "app" "u"
    ⟨⟨settleWorld (some matchedSecret), none⟩, []⟩ (reconcileFor 3)).state.task = some task ∧
      task.arm = .apply ∧ task.cr = settleCr := ⟨_, rfl, rfl, rfl⟩
  have hresolved := (contentHash_separates settleConfig).2 hsha "app" "u"
    (settleWorld (some matchedSecret)) (reconcileFor 3) task htask harm
  rw [hcr] at hresolved
  have hworld := hresolved.decided _ desired (settleWorld (some matchedSecret))
    ⟨⟨_, _, rfl, rfl, hrender⟩, any_unowned_eq_false_iff.mp hvacant, hbuild⟩ hfits fun d hd =>
      Option.some.inj (hheld.symm.trans hd) ▸ hfits
  rw [decide_eq_true hheld] at hworld
  exact ⟨desired, hworld⟩

end Trail

end Operator

end SecretBunker
