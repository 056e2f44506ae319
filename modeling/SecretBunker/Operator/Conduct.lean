import SecretBunker.Lib.Conduct
import SecretBunker.Operator.History

/-!
# Secret への書き込み

`apply_bunker_secret` が Secret に触れるのは、render した中身を target に書くときと、改名の前の target を
片付けるときだけである。どちらも、直前の GET で所有を確かめてから、別の API 呼び出しで書く。

二つの書き込みに何を求めるかは示したい性質ごとに違うので、`Tenets` がそれを与える。手続きについての議論は
ここで一度だけ行う。
-/

namespace SecretBunker

open Interleaving Ordered

namespace Operator

/-! ## Secret に触れない手続き -/

/-- Secret を書く API 呼び出し。 -/
def Entry.writes : Entry → Bool
  | .applied _ _ | .orphaned _ | .deleted _ => true
  | _ => false

/-- Secret の中身と、Secret を書いた足跡。 -/
def World.ledger (w : World) : (String → Option StoredSecret) × List Entry :=
  (w.secrets, w.trace.filter Entry.writes)

/-- status と Warning を残しても変わらない見方。 -/
structure Unseen {γ : Type} (f : World → γ) : Prop where
  warned : ∀ w generation reason message, f (w.record (.warned generation reason message)) = f w
  reported : ∀ w crs status written,
    f { w with crs := crs, trace := w.trace ++ [.reported status written] } = f w

theorem ledger_record (w : World) {e : Entry} (h : e.writes = false) :
    (w.record e).ledger = w.ledger := by
  simp [World.ledger, World.record, h]

theorem unseen_ledger : Unseen World.ledger where
  warned := fun w _ _ _ => ledger_record w rfl
  reported := fun w _ status written => ledger_record w (e := .reported status written) rfl

section

variable {γ : Type} {f : World → γ}

theorem keeps_patchStatus (hf : Unseen f) (cr : BunkerSecret) (status : BunkerSecretStatus) :
    (patchStatus cr status).Keeps f := by
  unfold patchStatus
  split
  · exact .atomic fun w => hf.reported w w.crs status false
  · refine .attempt (fun _ => rfl) fun w a w' h => ?_
    obtain ⟨_, -, hw⟩ := Option.map_eq_some_iff.mp h
    cases hw
    exact hf.reported w _ status true

theorem keeps_read {α : Type} (g : World → α) : (Prog.read g).Keeps f := .atomic fun _ => rfl

theorem keeps_degrade (hf : Unseen f) (cr : BunkerSecret) (reason : Reason) (message : String) :
    (degrade cr reason message).Keeps f :=
  (keeps_publishWarning fun w => hf.warned w _ _ _).bind fun _ =>
    (keeps_read _).bind fun _ => keeps_patchStatus hf cr _

theorem keeps_handleRenderError (hf : Unseen f) (cfg : Config) (cr : BunkerSecret)
    (e : RenderError) : (handleRenderError cfg cr e).Keeps f := by
  unfold handleRenderError
  split
  · trivial
  · exact (keeps_degrade hf cr _ _).bind fun _ => trivial

theorem keeps_reportSynced (hf : Unseen f) (cfg : Config) (cr : BunkerSecret)
    (data : SortedMap String Bytes) : (reportSynced cfg cr data).Keeps f := by
  refine (keeps_read _).bind fun stale => ?_
  refine Prog.Obeys.bind ?_ fun _ => (keeps_read _).bind fun _ =>
    (keeps_read _).bind fun _ => keeps_patchStatus hf cr _
  cases stale with
  | true => exact keeps_publishWarning fun w => hf.warned w _ _ _
  | false => trivial

end

/-! ## 二つの書き込み -/

/-- CR の持ち物である Secret。 -/
def Owned (cr : BunkerSecret) (w : World) (name : String) : Prop :=
  ∃ s, w.secrets name = some s ∧ ownedBy (s.read cr.nameSpace name) cr = true

/-- CR の持ち物でない Secret は無い。 -/
def Vacant (cr : BunkerSecret) (w : World) (name : String) : Prop :=
  ∀ s, w.secrets name = some s → ownedBy (s.read cr.nameSpace name) cr = true

/-- それまでの動作のどこかで、render が `data` を返した。 -/
def RenderedAs (cfg : Config) (cr : BunkerSecret) (data : SortedMap String Bytes)
    (steps : List (World × World)) : Prop :=
  ∃ p ∈ steps, render cfg.formats (replicaSource cfg.prim cfg.own cfg.key p.1.mirror) cr.spec =
    .ok data

/-- target を書いた後の Secret。 -/
def written (cr : BunkerSecret) (desired : K8sSecret) (w : World) : String → Option StoredSecret :=
  Function.update w.secrets cr.targetName
    (some (StoredSecret.apply (w.secrets cr.targetName) desired))

/-- それまでの動作のどこかで、target を書いたか、その中身が書きたいものと同じだった。 -/
def Delivered (cfg : Config) (cr : BunkerSecret) (desired : K8sSecret)
    (steps : List (World × World)) : Prop :=
  ∃ p ∈ steps, p.2.secrets = written cr desired p.1 ∨
    contentHashOf cfg.prim ((p.1.secrets cr.targetName).map (·.read cr.nameSpace cr.targetName)) =
      desired.annotations.get? hashAnnotation

/-- 片付けた後に残るもの。 -/
def DeletionPolicy.leaves : DeletionPolicy → StoredSecret → Option StoredSecret
  | .delete, _ => none
  | .retain, s => some s.orphan

/-- 前の target を片付けた後の Secret。 -/
def retired (cr : BunkerSecret) (prev : String) (s : StoredSecret) (w : World) :
    String → Option StoredSecret :=
  Function.update w.secrets prev (cr.spec.deletionPolicy.leaves s)

/-- Secret に触れる動作に求めること。`g` は直前の GET の時の状態である。 -/
structure Tenets (cfg : Config) (cr : BunkerSecret) (M : Manners World) : Prop where
  quiet : ∀ {steps w w'}, w'.ledger = w.ledger → M.guar steps w w'
  write : ∀ {steps : List (World × World)} {update : World → World} {g w : World}
    {data : SortedMap String Bytes} {desired : K8sSecret}, RenderedAs cfg cr data steps →
    buildSecret cfg.prim cr data = some desired → Vacant cr g cr.targetName → M.rely update g w →
    (update w).secrets = written cr desired w → M.guar steps w (update w)
  retire : ∀ {steps : List (World × World)} {update : World → World} {g w : World}
    {data : SortedMap String Bytes} {desired : K8sSecret} {prev : String} {s : StoredSecret},
    RenderedAs cfg cr data steps → buildSecret cfg.prim cr data = some desired →
    Delivered cfg cr desired steps → cr.recordedTarget = some prev → prev ≠ cr.targetName →
    Owned cr g prev → M.rely update g w → w.secrets prev = some s →
    (update w).secrets = retired cr prev s w → M.guar steps w (update w)

theorem RenderedAs.append {cfg : Config} {cr : BunkerSecret} {data : SortedMap String Bytes}
    {steps : List (World × World)} (h : RenderedAs cfg cr data steps) (p : World × World) :
    RenderedAs cfg cr data (steps ++ [p]) := by
  obtain ⟨q, hq, hr⟩ := h
  exact ⟨q, List.mem_append_left _ hq, hr⟩

theorem Delivered.append {cfg : Config} {cr : BunkerSecret} {desired : K8sSecret}
    {steps : List (World × World)} (h : Delivered cfg cr desired steps) (p : World × World) :
    Delivered cfg cr desired (steps ++ [p]) := by
  obtain ⟨q, hq, hr⟩ := h
  exact ⟨q, List.mem_append_left _ hq, hr⟩

namespace Tenets

variable {cfg : Config} {cr : BunkerSecret} {M : Manners World} {steps : List (World × World)}
  {data : SortedMap String Bytes} {desired : K8sSecret}

/-- Secret に触れない手続きは、いつでも作法に適う。 -/
theorem heeds_quiet (T : Tenets cfg cr M) {α : Type} {p : Prog World α}
    (hk : p.Keeps World.ledger) : M.Heeds (fun _ _ => True) steps p :=
  .of_keeps (P := fun _ => True) hk (fun _ _ _ => T.quiet) (fun _ _ _ _ => trivial) trivial

theorem heeds_writeSecret (T : Tenets cfg cr M) {g : World} (hr : RenderedAs cfg cr data steps)
    (hd : buildSecret cfg.prim cr data = some desired) (hg : Vacant cr g cr.targetName)
    (hlast : steps.getLast? = some (g, g)) :
    M.Heeds (fun steps _ => RenderedAs cfg cr data steps ∧ Delivered cfg cr desired steps) steps
      (writeSecret cfg cr ((g.secrets cr.targetName).map (·.read cr.nameSpace cr.targetName))
        desired) := by
  have hname : desired.name = cr.targetName := by
    obtain ⟨_, -, rfl⟩ := Option.map_eq_some_iff.mp hd
    rfl
  unfold writeSecret
  split
  · next hsame =>
    have hdelivered : Delivered cfg cr desired steps :=
      ⟨(g, g), List.mem_of_getLast? hlast, Or.inr hsame⟩
    exact .atomic fun w _ => ⟨T.quiet (ledger_record w rfl), hr.append _, hdelivered.append _⟩
  · rw [hname]
    exact .atomic fun w hw => ⟨T.write hr hd hg (hw _ hlast) rfl, hr.append _,
      _, List.mem_append_right _ List.mem_cons_self, Or.inl rfl⟩

/-- 前の target を片付ける動作。GET の後に消えていれば失敗する。 -/
theorem heeds_cleanupTarget (T : Tenets cfg cr M) {prev : String}
    (hr : RenderedAs cfg cr data steps) (hd : buildSecret cfg.prim cr data = some desired)
    (hs : Delivered cfg cr desired steps) (hprev : cr.recordedTarget = some prev)
    (hne : prev ≠ cr.targetName) :
    M.Heeds (fun _ _ => True) steps (cleanupTarget cr prev) := by
  refine .read_bind (fun _ => T.quiet rfl) fun g => ?_
  split
  · next howned =>
    have hg : Owned cr g prev := by
      cases hstored : g.secrets prev with
      | none =>
        rw [hstored] at howned
        cases howned
      | some s =>
        rw [hstored] at howned
        exact ⟨s, hstored, howned⟩
    have hwrite : ∀ (entry : Entry) (leave : StoredSecret → Option StoredSecret),
        (∀ s, leave s = cr.spec.deletionPolicy.leaves s) →
        M.Heeds (fun _ _ => True) (steps ++ [(g, g)]) (Prog.attempt fun w =>
          (w.secrets prev).map fun s => ((), { w with
            secrets := Function.update w.secrets prev (leave s), trace := w.trace ++ [entry] })) := by
      intro entry leave hleave
      refine .attempt (fun w _ => T.quiet rfl) fun w a w' hw hstep => ⟨?_, trivial⟩
      obtain ⟨s, hs', he⟩ := Option.map_eq_some_iff.mp hstep
      cases he
      have hafter := T.retire (hr.append (g, g)) hd (hs.append (g, g)) hprev hne hg
        (hw (g, g) List.getLast?_concat) hs'
      simp only [hs', Option.map_some, Option.getD_some] at hafter
      refine hafter ?_
      show Function.update w.secrets prev (leave s) = _
      rw [hleave]
      rfl
    cases hpolicy : cr.spec.deletionPolicy with
    | delete => exact hwrite _ (fun _ => none) fun s => by rw [hpolicy]; rfl
    | retain => exact hwrite _ (fun s => some s.orphan) fun s => by rw [hpolicy]; rfl
  · trivial

theorem heeds_retirePrevious (T : Tenets cfg cr M) (hr : RenderedAs cfg cr data steps)
    (hd : buildSecret cfg.prim cr data = some desired) (hs : Delivered cfg cr desired steps) :
    M.Heeds (fun _ _ => True) steps (retirePrevious cr) := by
  unfold retirePrevious
  split
  · next prev hprev =>
    split
    · trivial
    · next hne => exact T.heeds_cleanupTarget hr hd hs hprev hne
  · trivial

theorem heeds_applyRendered (T : Tenets cfg cr M) (hr : RenderedAs cfg cr data steps) :
    M.Heeds (fun _ _ => True) steps (applyRendered cfg cr data) := by
  refine .read_bind (fun _ => T.quiet rfl) fun g => ?_
  split
  · exact T.heeds_quiet ((keeps_degrade unseen_ledger cr _ _).bind fun _ => trivial)
  · next hforeign =>
    have hg : Vacant cr g cr.targetName := by
      intro s hs
      rw [hs] at hforeign
      simpa using hforeign
    refine .orFail_bind fun desired hd => ?_
    refine (T.heeds_writeSecret (hr.append (g, g)) hd hg List.getLast?_concat).bind ?_
    rintro after - ⟨hr, hs⟩
    exact (T.heeds_retirePrevious hr hd hs).bind fun _ _ _ =>
      T.heeds_quiet ((keeps_reportSynced unseen_ledger cfg cr data).bind fun _ => trivial)

/-- **`apply_bunker_secret` は、どう割り込まれても作法を守る。** -/
theorem heeds_applyBunkerSecret (T : Tenets cfg cr M) :
    M.Heeds (fun _ _ => True) [] (applyBunkerSecret cfg cr) := by
  refine .read_bind (fun _ => T.quiet rfl) fun g => ?_
  split
  · refine .read_bind (fun _ => T.quiet rfl) fun g => ?_
    split
    · exact T.heeds_quiet (keeps_handleRenderError unseen_ledger cfg cr _)
    · next data hdata =>
      exact T.heeds_applyRendered ⟨(g, g), List.mem_append_right _ List.mem_cons_self, hdata⟩
  · exact T.heeds_quiet ((keeps_degrade unseen_ledger cr _ _).bind fun _ => trivial)

end Tenets

end Operator

end SecretBunker
