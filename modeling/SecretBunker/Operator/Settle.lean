import SecretBunker.Operator.Conduct
import SecretBunker.Operator.Digest
import SecretBunker.Operator.Retain

/-!
# reconcile の落ち着く先

邪魔の入らない一回の `apply_bunker_secret` が何を残し、もう一度走らせたとき何をするか。

書く前に中身の hash を比べるので、手で書き換えられた中身は書き戻される。ただし server-side apply は、
ほかの manager が足した鍵には手を出せない。書き戻せるのは、render に無い鍵を operator だけが持つとき
である。

二度目は、status を前の status から組み立て直すので、どの結末からも同じ status に戻る。
-/

namespace SecretBunker

open Interleaving Ordered Relational

namespace Operator

/-! ## server-side apply の読み -/

/-- operator だけが持つ field。どの field もどれかの manager が持つので、ほかの manager が持たない field
はこれである。 -/
def Field.sole {V : Type} (f : Field V) : Bool := f.ours && !f.others

namespace Fields

variable {V : Type}

theorem get?_read (fields : Fields V) (key : String) :
    (read fields).get? key = (fields.get? key).map (·.value) := by
  unfold read
  rw [SortedMap.get?_filterMap]
  cases fields.get? key with
  | none => rfl
  | some f => rfl

variable [DecidableEq V]

theorem get?_apply_of_some {fields : Fields V} {desired : SortedMap String V} {key : String}
    {v : V} (h : desired.get? key = some v) :
    (apply fields desired).get? key =
      some ⟨v, true, (fields.get? key).any fun f => f.others && f.value == v⟩ := by
  obtain ⟨e, he, rfl⟩ := Option.map_eq_some_iff.mp h
  obtain rfl : e.1 = key := by simpa using List.find?_some he
  unfold apply
  rw [SortedMap.get?_foldl_insert desired.nodup_keys, he]
  rfl

theorem get?_apply_of_none {fields : Fields V} {desired : SortedMap String V} {key : String}
    (h : desired.get? key = none) :
    (apply fields desired).get? key = (fields.get? key).bind fun f =>
      if f.sole then none else some { f with ours := false } := by
  unfold apply
  rw [SortedMap.get?_foldl_insert desired.nodup_keys, Option.map_eq_none_iff.mp h,
    SortedMap.get?_filterMap]
  rfl

/-- 書いた後の中身が書きたいものと一致するのは、書かない鍵をどれも operator だけが持つときである。 -/
theorem read_apply_eq_iff {fields : Fields V} {desired : SortedMap String V} :
    read (apply fields desired) = desired ↔
      ∀ key f, fields.get? key = some f → desired.get? key = none → f.sole = true := by
  constructor
  · intro heq key f hf hnone
    have hread := get?_read (apply fields desired) key
    rw [heq, hnone, get?_apply_of_none hnone, hf, Option.bind_some] at hread
    by_contra hsole
    rw [if_neg hsole] at hread
    cases hread
  · intro hsole
    refine SortedMap.ext_get? fun key => ?_
    rw [get?_read]
    cases hd : desired.get? key with
    | some v =>
      rw [get?_apply_of_some hd]
      rfl
    | none =>
      rw [get?_apply_of_none hd]
      cases hf : fields.get? key with
      | none => rfl
      | some f =>
        rw [Option.bind_some, if_pos (hsole key f hf hd)]
        rfl

end Fields

/-! ## 一回の reconcile -/

/-- status だけを置き換えた CR。 -/
def BunkerSecret.withStatus (cr : BunkerSecret) (status : BunkerSecretStatus) : BunkerSecret :=
  { cr with status := some status }

/-- 途絶が長いか。 -/
def World.stale (cfg : Config) (w : World) : Bool :=
  w.disconnectedFor.any fun d => cfg.stalenessThreshold ≤ d

/-- 書き終えた後に残す condition。 -/
def syncedCondition (cfg : Config) (cr : BunkerSecret) (w : World) : Condition :=
  if w.stale cfg then
    readyCondition cr w.now false .staleReplica "bunker unreachable; serving last synced state"
  else readyCondition cr w.now true .synced ""

/-- 書き終えた後に残す status。 -/
def syncedStatus (cfg : Config) (cr : BunkerSecret) (data : SortedMap String Bytes) (w : World) :
    BunkerSecretStatus where
  conditions := [syncedCondition cfg cr w]
  lastSyncTime := syncTime cfg cr w.lastSynced
  observedGeneration := some cr.generation
  syncedSecretKeys := data.keys
  targetSecretName := some cr.targetName

/-- 今の mirror からの render。 -/
def World.rendered (cfg : Config) (w : World) (cr : BunkerSecret) :
    Except RenderError (SortedMap String Bytes) :=
  render cfg.formats (replicaSource cfg.prim cfg.own cfg.key w.mirror) cr.spec

/-- target の今の中身。 -/
def World.target (w : World) (cr : BunkerSecret) : Option K8sSecret :=
  (w.secrets cr.targetName).map (·.read cr.nameSpace cr.targetName)

variable {cfg : Config} {cr : BunkerSecret} {data : SortedMap String Bytes} {w w' : World}

theorem run_publishWarning (cr : BunkerSecret) (reason : Reason) (message : String) (w : World) :
    ∃ es, (publishWarningOnTransition cr reason message).run w =
      (some (), { w with trace := w.trace ++ es }) := by
  have hsame : w = { w with trace := w.trace ++ [] } := by rw [List.append_nil]
  unfold publishWarningOnTransition
  split
  · exact ⟨[], congrArg (Prod.mk _) hsame⟩
  · show ∃ es, (some (), if w.recorderUp then w.record _ else w) = _
    split
    · exact ⟨[_], rfl⟩
    · exact ⟨[], congrArg (Prod.mk _) hsame⟩

variable {status : BunkerSecretStatus} {reason : Reason} {message : String} {a : Action}
  {v : World}

/-- 中身のある status は、書かれるか、はじめから置かれている。 -/
theorem of_run_patchStatus (hne : status.conditions ≠ [])
    (h : (patchStatus cr status).run w = (some (), w')) :
    (w.crs cr.name = some cr → w'.crs cr.name = some (cr.withStatus status)) ∧
      w'.secrets = w.secrets := by
  unfold patchStatus at h
  split at h
  · next heq =>
    cases h
    refine ⟨fun hcr => ?_, rfl⟩
    cases hs : cr.status with
    | none =>
      rw [heq, hs] at hne
      exact absurd rfl hne
    | some st =>
      rw [hs, Option.getD_some] at heq
      unfold BunkerSecret.withStatus
      rw [heq, ← hs]
      exact hcr
  · have h := Prog.of_run_attempt h
    obtain ⟨stored, hstored, hw⟩ := Option.map_eq_some_iff.mp h
    cases hw
    refine ⟨fun hcr => ?_, rfl⟩
    cases hstored.symm.trans hcr
    exact Function.update_self ..

theorem of_run_degrade (h : (degrade cr reason message).run w = (some (), w')) :
    (w.crs cr.name = some cr → w'.crs cr.name = some
      (cr.withStatus (statusWith cr (readyCondition cr w.now false reason message)))) ∧
      w'.secrets = w.secrets := by
  obtain ⟨es, hes⟩ := run_publishWarning cr reason message w
  unfold degrade at h
  rw [Prog.run_bind hes] at h
  exact of_run_patchStatus (w := { w with trace := w.trace ++ es }) (List.cons_ne_nil _ _) h

theorem of_run_reportSynced (h : (reportSynced cfg cr data).run w = (some (), w')) :
    (w.crs cr.name = some cr →
      w'.crs cr.name = some (cr.withStatus (syncedStatus cfg cr data w))) ∧
      w'.secrets = w.secrets := by
  have hwarn : ∃ es, (if w.stale cfg then publishWarningOnTransition cr .staleReplica
      "bunker unreachable; serving last synced state" else pure ()).run w =
        (some (), { w with trace := w.trace ++ es }) := by
    split
    · exact run_publishWarning ..
    · exact ⟨[], by rw [List.append_nil]; rfl⟩
  obtain ⟨es, hes⟩ := hwarn
  obtain ⟨stale, u, hread, h⟩ := Prog.of_run_bind h
  cases hread
  replace h := (Prog.run_bind hes _).symm.trans h
  exact of_run_patchStatus (w := { w with trace := w.trace ++ es }) (List.cons_ne_nil _ _) h

/-- 片付けは、その名前の Secret にしか触れない。 -/
theorem keeps_cleanupTarget {γ : Type} {f : World → γ} {name : String}
    (hf : ∀ w s e, e = .deleted name ∨ e = .orphaned name →
      f { w with secrets := Function.update w.secrets name s
                 trace := w.trace ++ [e] } = f w) :
    (cleanupTarget cr name).Keeps f := by
  have hput : ∀ (g : StoredSecret → Option StoredSecret) (e : Entry),
      e = .deleted name ∨ e = .orphaned name →
      (Prog.attempt fun w : World => (w.secrets name).map fun s =>
        ((), { w with secrets := Function.update w.secrets name (g s)
                      trace := w.trace ++ [e] })).Keeps f := by
    intro g e he
    refine .attempt (fun _ => rfl) fun w a w' h => ?_
    obtain ⟨s, -, hw⟩ := Option.map_eq_some_iff.mp h
    cases hw
    exact hf w (g s) e he
  refine Prog.Obeys.bind (.atomic fun _ => rfl) fun existing => ?_
  split
  · split
    · exact hput (fun _ => none) _ (Or.inl rfl)
    · exact hput (fun s => some s.orphan) _ (Or.inr rfl)
  · trivial

/-- 改名の後始末は、target にも CR にも触れない。 -/
theorem of_run_retirePrevious (h : (retirePrevious cr).run w = (some (), w')) :
    w'.secrets cr.targetName = w.secrets cr.targetName ∧
      w' = { w with secrets := w'.secrets, trace := w'.trace } := by
  have hkeeps : (retirePrevious cr).Keeps fun w : World =>
      (w.secrets cr.targetName, { w with secrets := fun _ => none, trace := [] }) := by
    unfold retirePrevious
    split
    · split
      · trivial
      · next prev _ hne =>
        refine keeps_cleanupTarget fun w s e _ => ?_
        dsimp only
        rw [Function.update_of_ne (Ne.symm hne)]
    · trivial
  have heq := hkeeps.run w
  rw [h] at heq
  obtain ⟨htarget, hrest⟩ := Prod.mk.inj heq
  refine ⟨htarget, ?_⟩
  cases w
  cases w'
  cases hrest
  rfl

/-- 書き終えた Secret は、hash が同じなら元のまま、違えば apply の結果である。 -/
theorem of_run_writeSecret {existing : Option K8sSecret} {desired : K8sSecret}
    (h : (writeSecret cfg cr existing desired).run w = (some (), w')) :
    w'.secrets desired.name =
        (if contentHashOf cfg.prim existing = desired.annotations.get? hashAnnotation then
          w.secrets desired.name
        else some (StoredSecret.apply (w.secrets desired.name) desired)) ∧
      w' = { w with secrets := w'.secrets, trace := w'.trace } := by
  unfold writeSecret at h
  split at h
  · next hsame =>
    cases h
    rw [if_pos hsame]
    exact ⟨rfl, rfl⟩
  · next hdiff =>
    cases h
    rw [if_neg hdiff]
    exact ⟨Function.update_self .., rfl⟩

theorem buildSecret_eq_some {prim : Primitives} {desired : K8sSecret}
    (h : buildSecret prim cr data = some desired) :
    desired.data = some data ∧
      desired.annotations.get? hashAnnotation = some (contentHash prim data) := by
  obtain ⟨uid, -, rfl⟩ := Option.map_eq_some_iff.mp h
  refine ⟨rfl, ?_⟩
  rw [SortedMap.get?_insert, if_pos rfl]

theorem any_unowned_eq_false_iff :
    ((w.target cr).any fun s => !ownedBy s cr) = false ↔ Vacant cr w cr.targetName := by
  unfold World.target Vacant
  cases w.secrets cr.targetName with
  | none =>
    refine ⟨fun _ s hs => ?_, fun _ => rfl⟩
    cases hs
  | some s =>
    show (!ownedBy _ cr) = false ↔ _
    rw [Bool.not_eq_false']
    exact ⟨fun h t ht => Option.some.inj ht ▸ h, fun h => h s rfl⟩

/-- 所有する target への一回の reconcile。中身が同じなら触れず、違えば書く。 -/
theorem of_run_applyRendered (hvacant : Vacant cr w cr.targetName)
    (h : (applyRendered cfg cr data).run w = (some (.ok a), w')) :
    a = .requeue cfg.resync ∧
      (w.crs cr.name = some cr →
        w'.crs cr.name = some (cr.withStatus (syncedStatus cfg cr data w))) ∧
      ∃ desired, buildSecret cfg.prim cr data = some desired ∧
        w'.secrets cr.targetName =
          if contentHashOf cfg.prim (w.target cr) = some (contentHash cfg.prim data) then
            w.secrets cr.targetName
          else some (StoredSecret.apply (w.secrets cr.targetName) desired) := by
  obtain ⟨existing, u, hget, h⟩ := Prog.of_run_bind h
  cases hget
  have howned := any_unowned_eq_false_iff.mpr hvacant
  replace h : (if (w.target cr).any (fun s => !ownedBy s cr) then _ else _ :
    Prog World (Except OperatorError Action)).run w = _ := h
  rw [howned, if_neg Bool.false_ne_true] at h
  obtain ⟨desired, u, hdesired, h⟩ := Prog.of_run_bind h
  obtain ⟨hbuild, rfl⟩ := Prog.of_run_orFail hdesired
  obtain ⟨_, w₁, hwrite, h⟩ := Prog.of_run_bind h
  obtain ⟨_, w₂, hretire, h⟩ := Prog.of_run_bind h
  obtain ⟨_, w₃, hreport, h⟩ := Prog.of_run_bind h
  cases h
  have hname := name_buildSecret hbuild
  obtain ⟨-, hhash⟩ := buildSecret_eq_some hbuild
  obtain ⟨hwritten, hrest₁⟩ := of_run_writeSecret hwrite
  obtain ⟨hkept, hrest₂⟩ := of_run_retirePrevious hretire
  obtain ⟨hstatus, hsecrets⟩ := of_run_reportSynced hreport
  refine ⟨rfl, fun hcr => ?_, desired, hbuild, ?_⟩
  · have hcrs := hstatus (by rw [hrest₂, hrest₁]; exact hcr)
    rw [hrest₂, hrest₁] at hcrs
    exact hcrs
  · rw [hname, hhash] at hwritten
    rw [hsecrets, hkept, hwritten]
    rfl

/-- 同期していなければ待ち、render できなければ診断し、できれば書く。 -/
theorem run_applyBunkerSecret (cfg : Config) (cr : BunkerSecret) (w : World) :
    (applyBunkerSecret cfg cr).run w =
      (if w.lastSynced.isSome then
        match w.rendered cfg cr with
        | .error e => handleRenderError cfg cr e
        | .ok data => applyRendered cfg cr data
      else awaitSync cr).run w := by
  show (if w.lastSynced.isSome = true then Prog.bind _ _ else awaitSync cr).run w = _
  split
  · rfl
  · rfl

/-! ## 書き戻し -/

theorem contentHashOf_read (prim : Primitives) (s : StoredSecret) (nameSpace name : String) :
    contentHashOf prim (some (s.read nameSpace name)) =
      if s.data.entries.isEmpty then none else some (contentHash prim (Fields.read s.data)) := by
  unfold contentHashOf StoredSecret.read
  split
  · rfl
  · rfl

/-- 中身をそのまま hash とする設定。 -/
def settleConfig : Config := { sampleConfig with prim := { plain with sha256 := id } }

/-- group の secret を一つだけ写す CR。 -/
def settleCr : BunkerSecret :=
  { sampleCr with spec := { sampleSpec "a" with data := [⟨"PW", ⟨"g", "n", none⟩⟩] } }

/-- 値を書き換えられ、鍵を一つ足された Secret。 -/
def editedSecret (f : Field Bytes) : StoredSecret where
  annotations := .empty
  labels := .empty
  ownerReferences := SortedMap.empty.insert "u" ⟨⟨"v1alpha1", "BunkerSecret", "app", true⟩, true, false⟩
  type := "Opaque"
  data := (SortedMap.empty.insert "PW" ⟨[0], false, true⟩).insert "OLD" f

/-- operator の読める secret が一つある mirror。 -/
def settleMirror : Db :=
  { Db.empty with
    secretGroup := .singleton ⟨1, "g"⟩
    dekWrap := ⟨[⟨1, 1, "r", plain.ageEncrypt ⟨"k"⟩ [] (List.replicate dekLen 0)⟩],
      List.pairwise_singleton _ _⟩
    secret := ⟨[⟨1, 1, "n", 1⟩], List.pairwise_singleton _ _⟩
    secretVersion := ⟨[⟨1, 1, 1, List.replicate nonceLen 0, [7], 0, "a"⟩],
      List.pairwise_singleton _ _⟩
    aclGroup := Table.References.empty
    dekGroup := Table.References.empty
    wrapGroup := fun _ h => ⟨_, List.mem_singleton_self _, by cases List.mem_singleton.mp h; rfl⟩
    secretInGroup := fun _ h => ⟨_, List.mem_singleton_self _, by cases List.mem_singleton.mp h; rfl⟩
    versionOfSecret := fun _ h =>
      ⟨_, List.mem_singleton_self _, by cases List.mem_singleton.mp h; rfl⟩ }

def settleWorld (s : Option StoredSecret) : World :=
  { sampleWorld with
    crs := Function.update sampleWorld.crs "app" (some settleCr)
    secrets := Function.update sampleWorld.secrets "a" s
    mirror := settleMirror }

theorem rendered_settleMirror :
    render settleConfig.formats (replicaSource settleConfig.prim settleConfig.own settleConfig.key
      settleMirror) settleCr.spec = .ok (SortedMap.empty.insert "PW" [7]) := by
  decide +kernel

/-- **手で書き換えた中身が書き戻されるのは、render に無い鍵をどれも operator だけが持つときである。** -/
theorem edits_reverted_iff {s : StoredSecret} {a : Action} (hsync : w.lastSynced.isSome = true)
    (hrender : w.rendered cfg cr = .ok data) (hs : w.secrets cr.targetName = some s)
    (howned : ownedBy (s.read cr.nameSpace cr.targetName) cr = true)
    (hfits : Fits (Fields.read s.data)) (hfits' : Fits data)
    (hfree : CollisionFree cfg.prim (Fields.read s.data) data)
    (hrun : (applyBunkerSecret cfg cr).run w = (some (.ok a), w')) :
    ∃ s', w'.secrets cr.targetName = some s' ∧ (Fields.read s'.data = data ↔
      ∀ key f, s.data.get? key = some f → data.get? key = none → f.sole = true) := by
  have hvacant : Vacant cr w cr.targetName := fun t ht => by
    cases hs.symm.trans ht
    exact howned
  rw [run_applyBunkerSecret, if_pos hsync, hrender] at hrun
  obtain ⟨-, -, desired, hbuild, htarget⟩ := of_run_applyRendered hvacant hrun
  rw [World.target, hs, Option.map_some] at htarget
  split at htarget
  · next hsame =>
    -- hash が同じなら中身も同じで、render に無い鍵は無い
    rw [contentHashOf_read] at hsame
    split at hsame
    · cases hsame
    · have hread : Fields.read s.data = data :=
        (contentHash_eq_iff hfits hfits' hfree).mp (Option.some.inj hsame)
      refine ⟨s, htarget, fun _ key f hf hnone => ?_, fun _ => hread⟩
      rw [← hread, Fields.get?_read, hf] at hnone
      cases hnone
  · refine ⟨_, htarget, ?_⟩
    show Fields.read (Fields.apply s.data (desired.data.getD .empty)) = data ↔ _
    rw [(buildSecret_eq_some hbuild).1]
    exact Fields.read_apply_eq_iff

/-- operator の古い鍵は消え、書き換えられた値は戻る。 -/
theorem edits_reverted_iff_sample :
    ∃ s', ((applyBunkerSecret settleConfig settleCr).run
        (settleWorld (some (editedSecret ⟨[1], true, false⟩)))).2.secrets "a" = some s' ∧
      Fields.read s'.data = SortedMap.empty.insert "PW" [7] := by
  have hrender : (settleWorld (some (editedSecret ⟨[1], true, false⟩))).rendered settleConfig settleCr =
      .ok (SortedMap.empty.insert "PW" [7]) := rendered_settleMirror
  have hs : (settleWorld (some (editedSecret ⟨[1], true, false⟩))).secrets settleCr.targetName =
      some (editedSecret ⟨[1], true, false⟩) := by decide +kernel
  have hrun : (applyBunkerSecret settleConfig settleCr).run
      (settleWorld (some (editedSecret ⟨[1], true, false⟩))) = (some (.ok (.requeue 60)), _) :=
    Prod.ext (by decide +kernel) rfl
  obtain ⟨s', hs', hiff⟩ := edits_reverted_iff rfl hrender hs (by decide +kernel)
    (by unfold Fits; decide +kernel) (by unfold Fits; decide +kernel) (fun h => h) hrun
  have hsole : ∀ e ∈ (editedSecret ⟨[1], true, false⟩).data.entries,
      (SortedMap.empty.insert "PW" ([7] : Bytes)).get? e.1 = none → e.2.sole = true := by
    decide +kernel
  exact ⟨s', hs', hiff.mpr fun key f hf => hsole (key, f) (SortedMap.get?_eq_some.mp hf)⟩

/-- ほかの manager が足した鍵は、何度 reconcile しても残る。 -/
theorem foreign_key_survives :
    ((applyBunkerSecret settleConfig settleCr).run
        (settleWorld (some (editedSecret ⟨[1], false, true⟩)))).1 = some (.ok (.requeue 60)) ∧
      (((applyBunkerSecret settleConfig settleCr).run
        (settleWorld (some (editedSecret ⟨[1], false, true⟩)))).2.secrets "a").map
          (fun s => Fields.read s.data) =
        some ((SortedMap.empty.insert "PW" [7]).insert "OLD" [1]) := by
  decide +kernel

/-! ## もう一度 -/

/-- 置かれたままであることを確かめただけの足跡。Secret にも status にも書かず、event も流さない。 -/
def Entry.idle (cr : BunkerSecret) : Entry → Prop
  | .skipped _ _ => True
  | .reported status written => written = false ∧ status = cr.status.getD {}
  | _ => False

/-- reconcile は `a` を返すだけで、何も書かない。 -/
def Quiet (cfg : Config) (cr : BunkerSecret) (a : Action) (w : World) : Prop :=
  ∃ es, (applyBunkerSecret cfg cr).run w = (some (.ok a), { w with trace := w.trace ++ es }) ∧
    ∀ e ∈ es, e.idle cr

/-- 同じ status と reason で組み立て直した condition は、置かれたものと同じである。 -/
theorem readyCondition_again {now : Int} {ok : Bool}
    (h : status.conditions = [readyCondition cr now ok reason message]) (now' : Int) :
    readyCondition (cr.withStatus status) now' ok reason message =
      readyCondition cr now ok reason message := by
  have hrecorded : (cr.withStatus status).recordedCondition =
      some (readyCondition cr now ok reason message) := by
    show status.conditions.head? = _
    rw [h]
    rfl
  have hsame : ((readyCondition cr now ok reason message).status == ok &&
      (readyCondition cr now ok reason message).reason == reason) = true := by
    show (ok == ok && reason == reason) = true
    rw [beq_self_eq_true, beq_self_eq_true]
    rfl
  unfold readyCondition at hrecorded hsame ⊢
  rw [hrecorded, Option.filter_some, if_pos hsame]
  rfl

/-- 理由が置かれたものと同じなら、event は流れない。 -/
theorem publishWarning_again {c : Condition} (h : status.conditions = [c]) (message : String) :
    publishWarningOnTransition (cr.withStatus status) c.reason message = pure () := by
  unfold publishWarningOnTransition
  refine if_pos ?_
  show status.conditions.head?.map (·.reason) = _
  rw [h]
  rfl

theorem run_patchStatus_again (cr : BunkerSecret) (status : BunkerSecretStatus) (w : World) :
    (patchStatus (cr.withStatus status) status).run w =
      (some (), w.record (.reported status false)) := by
  have hstored : status = (cr.withStatus status).status.getD {} := rfl
  unfold patchStatus
  rw [if_pos hstored]
  rfl

/-- 同じ不調をもう一度報告しても、何も書かない。 -/
theorem run_degrade_again {now : Int}
    (h : status = statusWith cr (readyCondition cr now false reason message)) (w : World) :
    (degrade (cr.withStatus status) reason message).run w =
      (some (), w.record (.reported status false)) := by
  have hconditions : status.conditions = [readyCondition cr now false reason message] := by
    rw [h]
    rfl
  have hstatus : statusWith (cr.withStatus status)
      (readyCondition (cr.withStatus status) w.now false reason message) = status := by
    rw [readyCondition_again hconditions]
    rw [h]
    rfl
  have hquiet : publishWarningOnTransition (cr.withStatus status) reason message = pure () :=
    publishWarning_again hconditions message
  unfold degrade
  rw [hquiet]
  show (patchStatus _ (statusWith (cr.withStatus status) (readyCondition _ w.now _ _ _))).run w = _
  rw [hstatus]
  exact run_patchStatus_again cr status _

/-- 同期の時刻は、replica から取れるときも引き継ぐときも、置かれたものと同じである。 -/
theorem syncTime_again {lastSynced : Option Int}
    (h : status.lastSyncTime = syncTime cfg cr lastSynced) :
    syncTime cfg (cr.withStatus status) lastSynced = syncTime cfg cr lastSynced := by
  show Option.or _ status.lastSyncTime = _
  rw [h]
  unfold syncTime
  rw [← Option.or_assoc, Option.or_self]

theorem syncedCondition_again (h : status.conditions = [syncedCondition cfg cr w])
    (hstale : v.stale cfg = w.stale cfg) :
    syncedCondition cfg (cr.withStatus status) v = syncedCondition cfg cr w := by
  unfold syncedCondition at h ⊢
  rw [hstale]
  split at h
  · next hst => rw [if_pos hst, if_pos hst, readyCondition_again h]
  · next hst => rw [if_neg hst, if_neg hst, readyCondition_again h]

/-- 同じ同期をもう一度報告しても、何も書かない。 -/
theorem run_reportSynced_again (h : status = syncedStatus cfg cr data w)
    (hstale : v.stale cfg = w.stale cfg) (hsynced : v.lastSynced = w.lastSynced) :
    (reportSynced cfg (cr.withStatus status) data).run v =
      (some (), v.record (.reported status false)) := by
  have hconditions : status.conditions = [syncedCondition cfg cr w] := by rw [h]; rfl
  have htime : status.lastSyncTime = syncTime cfg cr w.lastSynced := by rw [h]; rfl
  have hstatus : syncedStatus cfg (cr.withStatus status) data v = status := by
    unfold syncedStatus
    rw [syncedCondition_again hconditions hstale, hsynced, syncTime_again htime]
    exact h.symm
  have hquiet : (if v.stale cfg then publishWarningOnTransition (cr.withStatus status)
      .staleReplica "bunker unreachable; serving last synced state" else pure ()).run v =
        (some (), v) := by
    split
    · next hst =>
      rw [hstale] at hst
      rw [syncedCondition, if_pos hst] at hconditions
      exact congrArg (Prog.run · v) (publishWarning_again hconditions _)
    · rfl
  show (Prog.bind _ _).run v = _
  refine (Prog.run_bind (a := v.stale cfg) rfl _).trans ((Prog.run_bind hquiet _).trans ?_)
  show (patchStatus _ (syncedStatus cfg (cr.withStatus status) data v)).run v = _
  rw [hstatus]
  exact run_patchStatus_again cr status _

/-- 同じ中身をもう一度 apply しても、何も書かない。 -/
theorem run_applyRendered_again {desired : K8sSecret} (h : status = syncedStatus cfg cr data w)
    (hstale : v.stale cfg = w.stale cfg) (hsynced : v.lastSynced = w.lastSynced)
    (hbuild : buildSecret cfg.prim cr data = some desired) (hvacant : Vacant cr v cr.targetName)
    (hhash : contentHashOf cfg.prim (v.target cr) = some (contentHash cfg.prim data)) :
    (applyRendered cfg (cr.withStatus status) data).run v = (some (.ok (.requeue cfg.resync)),
      (v.record (.skipped cr.generation desired.name)).record (.reported status false)) := by
  have hwrite : (writeSecret cfg (cr.withStatus status) (v.target cr) desired).run v =
      (some (), v.record (.skipped cr.generation desired.name)) := by
    unfold writeSecret
    rw [if_pos (hhash.trans (buildSecret_eq_some hbuild).2.symm)]
    rfl
  have hretire : retirePrevious (cr.withStatus status) = pure () := by
    have hrecorded : (cr.withStatus status).recordedTarget = some cr.targetName := by
      show status.targetSecretName = _
      rw [h]
      rfl
    unfold retirePrevious
    rw [hrecorded]
    exact if_pos rfl
  show (if (v.target cr).any (fun s => !ownedBy s cr) then _ else _ :
    Prog World (Except OperatorError Action)).run v = _
  rw [any_unowned_eq_false_iff.mpr hvacant, if_neg Bool.false_ne_true]
  refine (Prog.run_bind (a := desired) (congrArg (fun x => (Prog.orFail x).run v) hbuild) _).trans ?_
  refine (Prog.run_bind hwrite _).trans ?_
  rw [hretire]
  refine (Prog.run_bind (a := ()) rfl _).trans ?_
  exact Prog.run_bind (run_reportSynced_again (v := v.record _) h hstale hsynced) _

/-- 邪魔の入らない degrade は status を残し、もう一度行っても同じ status に戻る。 -/
theorem degrade_settles {b : Action} (hcr : w.crs cr.name = some cr)
    (h : (do degrade cr reason message; pure (.ok b) : Prog World (Except OperatorError Action)).run w =
      (some (.ok a), w')) :
    w'.secrets = w.secrets ∧ ∃ status, w'.crs cr.name = some (cr.withStatus status) ∧
      status.lastSyncTime = (cr.status.getD {}).lastSyncTime ∧
      status.observedGeneration = some cr.generation ∧
      ∀ v, (do degrade (cr.withStatus status) reason message; pure (.ok b) :
          Prog World (Except OperatorError Action)).run v =
        (some (.ok a), v.record (.reported status false)) := by
  obtain ⟨_, u, hdegrade, h⟩ := Prog.of_run_bind h
  cases h
  obtain ⟨hstatus, hsecrets⟩ := of_run_degrade hdegrade
  refine ⟨hsecrets, _, hstatus hcr, rfl, rfl, fun v => ?_⟩
  exact Prog.run_bind (run_degrade_again rfl v) _

/-- 書き終えた target は、所有され、中身は render の通りである。 -/
theorem settled_target (hvacant : Vacant cr w cr.targetName) (hne : data.entries ≠ [])
    (hsole : ∀ s, w.secrets cr.targetName = some s →
      ∀ key f, s.data.get? key = some f → f.sole = true)
    (h : (applyRendered cfg cr data).run w = (some (.ok a), w')) :
    Vacant cr w' cr.targetName ∧
      contentHashOf cfg.prim (w'.target cr) = some (contentHash cfg.prim data) := by
  obtain ⟨-, -, desired, hbuild, htarget⟩ := of_run_applyRendered hvacant h
  unfold World.target
  split at htarget
  · next hsame =>
    unfold Vacant
    rw [htarget]
    exact ⟨hvacant, hsame⟩
  · obtain ⟨uid, huid, -⟩ := Option.map_eq_some_iff.mp hbuild
    have hread : Fields.read (StoredSecret.apply (w.secrets cr.targetName) desired).data = data := by
      unfold StoredSecret.apply
      rw [(buildSecret_eq_some hbuild).1]
      refine Fields.read_apply_eq_iff.mpr fun key f hf _ => ?_
      cases hs : w.secrets cr.targetName with
      | none =>
        rw [hs] at hf
        cases hf
      | some s =>
        rw [hs] at hf
        exact hsole s hs key f hf
    refine ⟨fun s hs => ?_, ?_⟩
    · cases htarget.symm.trans hs
      obtain ⟨f, hf, hkind⟩ := ownerOf_apply huid hbuild (w.secrets cr.targetName)
      rw [ownedBy_read huid, hf]
      exact beq_iff_eq.mpr hkind
    · rw [htarget, Option.map_some, contentHashOf_read, hread]
      refine if_neg fun hempty => hne ?_
      rw [← hread]
      show List.filterMap _ _ = []
      rw [List.isEmpty_iff.mp hempty]
      rfl

/-- render した後の結末は、どれも落ち着く。 -/
theorem applyRendered_settles (hcr : w.crs cr.name = some cr) (hne : data.entries ≠ [])
    (hsole : ∀ s, w.secrets cr.targetName = some s →
      ownedBy (s.read cr.nameSpace cr.targetName) cr = true →
      ∀ key f, s.data.get? key = some f → f.sole = true)
    (h : (applyRendered cfg cr data).run w = (some (.ok a), w')) :
    ∃ status, w'.crs cr.name = some (cr.withStatus status) ∧
      ∀ v : World, v.secrets = w'.secrets → v.lastSynced = w.lastSynced →
        v.stale cfg = w.stale cfg →
          ∃ es, (applyRendered cfg (cr.withStatus status) data).run v =
              (some (.ok a), { v with trace := v.trace ++ es }) ∧
            ∀ e ∈ es, e.idle (cr.withStatus status) := by
  cases hany : (w.target cr).any fun s => !ownedBy s cr with
  | true =>
    replace h : (if (w.target cr).any (fun s => !ownedBy s cr) then _ else _ :
      Prog World (Except OperatorError Action)).run w = _ := h
    rw [hany, if_pos rfl] at h
    obtain ⟨hsecrets, status, hstatus, -, -, hagain⟩ := degrade_settles hcr h
    refine ⟨status, hstatus, fun v hs _ _ => ⟨[.reported status false], ?_, ?_⟩⟩
    · have hany' : ((v.target cr).any fun s => !ownedBy s cr) = true := by
        unfold World.target at hany ⊢
        rw [hs, hsecrets]
        exact hany
      show (if (v.target cr).any (fun s => !ownedBy s cr) then _ else _ :
        Prog World (Except OperatorError Action)).run v = _
      rw [hany', if_pos rfl]
      exact hagain v
    · exact List.forall_mem_singleton.mpr ⟨rfl, rfl⟩
  | false =>
    have hvacant := any_unowned_eq_false_iff.mp hany
    obtain ⟨rfl, hstatus, desired, hbuild, -⟩ := of_run_applyRendered hvacant h
    obtain ⟨hvacant', hhash⟩ :=
      settled_target hvacant hne (fun s hs => hsole s hs (hvacant s hs)) h
    refine ⟨_, hstatus hcr, fun v hs hl hst =>
      ⟨[.skipped cr.generation desired.name, .reported (syncedStatus cfg cr data w) false], ?_, ?_⟩⟩
    · rw [run_applyRendered_again rfl hst hl hbuild]
      · unfold World.record
        rw [List.append_assoc]
        rfl
      · unfold Vacant
        rw [hs]
        exact hvacant'
      · unfold World.target
        rw [hs]
        exact hhash
    · exact List.forall_mem_cons.mpr ⟨trivial, List.forall_mem_singleton.mpr ⟨rfl, rfl⟩⟩

/-- 診断は、観測した generation と同期の記録だけを見る。 -/
theorem diagnose_again {formats : Formats}
    (hgen : cr.status.bind (·.observedGeneration) = some cr.generation)
    (htime : status.lastSyncTime = (cr.status.getD {}).lastSyncTime)
    (hobserved : status.observedGeneration = some cr.generation) (e : RenderError) :
    diagnose formats (cr.withStatus status) e = diagnose formats cr e := by
  have hsynced : previouslySynced (cr.withStatus status) = previouslySynced cr := by
    show status.lastSyncTime.isSome = _
    rw [htime]
    unfold previouslySynced
    cases cr.status with
    | none => rfl
    | some st => rfl
  have hspec : specUnchangedSinceSync (cr.withStatus status) = specUnchangedSinceSync cr := by
    obtain ⟨st, hst, hobs⟩ := Option.bind_eq_some_iff.mp hgen
    unfold specUnchangedSinceSync
    rw [hst]
    show (status.observedGeneration == some cr.generation) = (st.observedGeneration == _)
    rw [hobserved, hobs]
  cases e with
  | missingGroup group =>
    unfold diagnose
    dsimp only
    rw [hsynced, hspec]
  | _ => rfl

theorem quiet_of_report (h : (applyBunkerSecret cfg (cr.withStatus status)).run v =
      (some (.ok a), v.record (.reported status false))) :
    Quiet cfg (cr.withStatus status) a v :=
  ⟨[_], h, List.forall_mem_singleton.mpr ⟨rfl, rfl⟩⟩

/-- **落ち着いた reconcile は何も書かない。** `Ok` を返した後に同じ mirror と同じ途絶の判定でもう一度
走らせると、Secret も status も書かず、event も流さない。 -/
theorem reconcile_quiescent {a : Action} (hcr : w.crs cr.name = some cr)
    (hgen : cr.status.bind (·.observedGeneration) = some cr.generation ∨
      ∃ data, w.rendered cfg cr = .ok data)
    (hne : ∀ data, w.rendered cfg cr = .ok data → data.entries ≠ [])
    (hsole : ∀ s, w.secrets cr.targetName = some s →
      ownedBy (s.read cr.nameSpace cr.targetName) cr = true →
        ∀ key f, s.data.get? key = some f → f.sole = true)
    (hrun : (applyBunkerSecret cfg cr).run w = (some (.ok a), w')) :
    ∃ status, w'.crs cr.name = some (cr.withStatus status) ∧
      ∀ v : World, v.secrets = w'.secrets → v.mirror = w.mirror → v.lastSynced = w.lastSynced →
        v.stale cfg = w.stale cfg → Quiet cfg (cr.withStatus status) a v := by
  have hrendered : ∀ {v : World} status, v.mirror = w.mirror →
      v.rendered cfg (cr.withStatus status) = w.rendered cfg cr := fun status hm => by
    unfold World.rendered
    rw [hm]
    rfl
  rw [run_applyBunkerSecret] at hrun
  split at hrun
  · next hsync =>
    cases hr : w.rendered cfg cr with
    | error e =>
      have hobs := hgen.resolve_right fun ⟨data, hdata⟩ => by
        rw [hr] at hdata
        cases hdata
      rw [hr] at hrun
      unfold handleRenderError at hrun
      dsimp only at hrun
      split at hrun
      · cases hrun
      · next reason message hdiag =>
        obtain ⟨-, status, hstatus, htime, hgen', hagain⟩ := degrade_settles hcr hrun
        refine ⟨status, hstatus, fun v hs hm hl hst => quiet_of_report ?_⟩
        rw [run_applyBunkerSecret, hl, if_pos hsync, hrendered status hm, hr]
        unfold handleRenderError
        dsimp only
        rw [diagnose_again hobs htime hgen', hdiag]
        exact hagain v
    | ok data =>
      rw [hr] at hrun
      obtain ⟨status, hstatus, hagain⟩ := applyRendered_settles hcr (hne data hr) hsole hrun
      refine ⟨status, hstatus, fun v hs hm hl hst => ?_⟩
      have hsync' : v.lastSynced.isSome = true := by rw [hl]; exact hsync
      unfold Quiet
      rw [run_applyBunkerSecret, if_pos hsync', hrendered status hm, hr]
      exact hagain v hs hl hst
  · next hsync =>
    obtain ⟨-, status, hstatus, -, -, hagain⟩ := degrade_settles hcr hrun
    refine ⟨status, hstatus, fun v hs hm hl hst => quiet_of_report ?_⟩
    rw [run_applyBunkerSecret, hl, if_neg hsync]
    exact hagain v

/-- 作ったばかりの Secret には、時計が進んでも何も書かない。 -/
theorem reconcile_quiescent_sample :
    ∃ status, ((applyBunkerSecret settleConfig settleCr).run (settleWorld none)).2.crs "app" =
        some (settleCr.withStatus status) ∧
      Quiet settleConfig (settleCr.withStatus status) (.requeue 60)
        { settleWorld none with
          crs := ((applyBunkerSecret settleConfig settleCr).run (settleWorld none)).2.crs
          secrets := ((applyBunkerSecret settleConfig settleCr).run (settleWorld none)).2.secrets
          now := 5000000000 } := by
  have hrendered : (settleWorld none).rendered settleConfig settleCr =
      .ok (SortedMap.empty.insert "PW" [7]) := rendered_settleMirror
  have hrun : (applyBunkerSecret settleConfig settleCr).run (settleWorld none) =
      (some (.ok (.requeue 60)), _) := Prod.ext (by decide +kernel) rfl
  have hcr : (settleWorld none).crs settleCr.name = some settleCr := by decide +kernel
  have hsecret : (settleWorld none).secrets settleCr.targetName = none := by decide +kernel
  obtain ⟨status, hstatus, hquiet⟩ := reconcile_quiescent hcr
    (Or.inr ⟨_, hrendered⟩) (fun data hdata => by cases hrendered.symm.trans hdata; decide)
    (fun s hs => by cases hsecret.symm.trans hs) hrun
  exact ⟨status, hstatus, hquiet _ rfl rfl rfl rfl⟩

end Operator

end SecretBunker
