import Mathlib.Logic.Function.Basic
import SecretBunker.Operator.Render

/-!
# reconcile

`operator/src/reconcile.rs`。CR を受け取って mirror から Secret を作り、server-side apply で書き、
結果を status に残す。手続きは API 呼び出し一回ぶんの動作の列で、その間に API server の中身も
mirror も動く。

API 呼び出しはどれも失敗しうる。`?` で抜ける失敗は手続きの打ち切りとして、走らせる側が扱う。
metrics と log は扱わない。render は mirror を一つの時点で読むものとする。
-/

namespace SecretBunker

open Interleaving Ordered

namespace Operator

/-! ## API server -/

/-- API server の持つ field。`ours` は operator の field manager が、`others` はほかの manager が
その field を持つことを表す。 -/
structure Field (V : Type) where
  value : V
  ours : Bool
  others : Bool
  deriving DecidableEq

abbrev Fields (V : Type) := SortedMap String (Field V)

namespace Fields

variable {V : Type}

def read (fields : Fields V) : SortedMap String V := fields.filterMap fun _ f => some f.value

/-- 強制の server-side apply。自分だけが持ち、もう書かない field は消え、
ほかの manager の field は残る。値の変わった field はほかの manager から取り上げる。 -/
def apply [DecidableEq V] (fields : Fields V) (desired : SortedMap String V) : Fields V :=
  desired.entries.foldl
    (fun acc e => acc.insert e.1
      ⟨e.2, true, (fields.get? e.1).any fun f => f.others && f.value == e.2⟩)
    (fields.filterMap fun _ f => if f.ours && !f.others then none else some { f with ours := false })

end Fields

/-- API server に置かれた Secret。 -/
structure StoredSecret where
  annotations : SortedMap String String
  labels : SortedMap String String
  ownerReferences : Fields OwnerReference
  type : String
  data : Fields Bytes
  deriving DecidableEq

namespace StoredSecret

/-- GET の答え。空の data は省かれる。 -/
def read (s : StoredSecret) (nameSpace name : String) : K8sSecret where
  name := name
  nameSpace := nameSpace
  annotations := s.annotations
  labels := s.labels
  ownerReferences := Fields.read s.ownerReferences
  type := s.type
  data := if s.data.entries.isEmpty then none else some (Fields.read s.data)

/-- 強制の server-side apply。無ければ作る。 -/
def apply (stored : Option StoredSecret) (desired : K8sSecret) : StoredSecret :=
  let base := stored.getD ⟨.empty, .empty, .empty, desired.type, .empty⟩
  { annotations := desired.annotations.entries.foldl (fun m e => m.insert e.1 e.2) base.annotations
    labels := desired.labels.entries.foldl (fun m e => m.insert e.1 e.2) base.labels
    ownerReferences := Fields.apply base.ownerReferences desired.ownerReferences
    type := desired.type
    data := Fields.apply base.data (desired.data.getD .empty) }

/-- `ownerReferences: null` の merge patch。 -/
def orphan (s : StoredSecret) : StoredSecret := { s with ownerReferences := .empty }

end StoredSecret

/-- operator のしたこと。 -/
inductive Entry where
  | applied (generation : Int) (secret : K8sSecret)
  /-- 中身が同じなので書かなかった。 -/
  | skipped (generation : Int) (target : String)
  | orphaned (name : String)
  | deleted (name : String)
  /-- `patch_status` に渡した status。`written` は API server に書いたかどうか。 -/
  | reported (status : BunkerSecretStatus) (written : Bool)
  | warned (generation : Int) (reason : Reason) (message : String)
  deriving DecidableEq

/-- 手続きの触れるもの：一つの namespace の API server、replica、時計、operator の足跡。 -/
structure World where
  crs : String → Option BunkerSecret
  secrets : String → Option StoredSecret
  mirror : Db
  /-- `replica.status().last_synced`。ナノ秒で数える。 -/
  lastSynced : Option Int
  /-- `Staleness::disconnected_for`。秒で数える。 -/
  disconnectedFor : Option Nat
  now : Int
  /-- event を受け付けるか。 -/
  recorderUp : Bool
  trace : List Entry

/-- 動かない設定。 -/
structure Config where
  prim : Primitives
  formats : Formats
  own : String
  key : AgeIdentity
  resync : Nat
  stalenessThreshold : Nat

inductive OperatorError where
  | transient (message : String)
  deriving DecidableEq

/-- 次に reconcile するまで。 -/
inductive Action where
  | requeue (seconds : Nat)
  | awaitChange
  deriving DecidableEq

/-! ## status -/

/-- API server に置ける精度に切り捨てた秒。 -/
def truncateToWirePrecision (nanos : Int) : Int := nanos.tdiv 1000000000

/-- `lastTransitionTime` は status か reason が変わったときだけ動く。 -/
def readyCondition (cr : BunkerSecret) (now : Int) (ok : Bool) (reason : Reason)
    (message : String) : Condition where
  status := ok
  reason := reason
  message := message
  lastTransitionTime := ((cr.recordedCondition.filter fun c =>
    c.status == ok && c.reason == reason).map (·.lastTransitionTime)).getD
      (truncateToWirePrecision now)
  observedGeneration := cr.generation

/-- 同期の記録を残したまま condition を置き換える。 -/
def statusWith (cr : BunkerSecret) (condition : Condition) : BunkerSecretStatus :=
  { cr.status.getD {} with
    conditions := [condition]
    observedGeneration := some cr.generation }

def World.record (w : World) (e : Entry) : World := { w with trace := w.trace ++ [e] }

/-- 何も変わらなければ書かない。 -/
def patchStatus (cr : BunkerSecret) (status : BunkerSecretStatus) : Prog World Unit :=
  if status = cr.status.getD {} then .modify fun w => w.record (.reported status false)
  else .attempt fun w => (w.crs cr.name).map fun stored =>
    ((), { w with
      crs := Function.update w.crs cr.name (some { stored with status := some status })
      trace := w.trace ++ [.reported status true] })

/-- 失敗の理由が変わったときだけ Warning を流す。流せなくても続ける。 -/
def publishWarningOnTransition (cr : BunkerSecret) (reason : Reason) (message : String) :
    Prog World Unit :=
  if cr.recordedCondition.map (·.reason) = some reason then pure ()
  else .modify fun w =>
    if w.recorderUp then w.record (.warned cr.generation reason message) else w

/-- Warning の残すものは足跡だけである。 -/
theorem keeps_publishWarning {γ : Type} {f : World → γ} {cr : BunkerSecret} {reason : Reason}
    {message : String} (hf : ∀ w, f (w.record (.warned cr.generation reason message)) = f w) :
    (publishWarningOnTransition cr reason message).Keeps f := by
  unfold publishWarningOnTransition
  split
  · trivial
  · refine .atomic fun w => ?_
    dsimp only
    split
    · exact hf w
    · rfl

/-- 失敗を知らせ、同期の記録を残したまま Ready を下ろす。 -/
def degrade (cr : BunkerSecret) (reason : Reason) (message : String) : Prog World Unit := do
  publishWarningOnTransition cr reason message
  let now ← .read (·.now)
  patchStatus cr (statusWith cr (readyCondition cr now false reason message))

/-! ## 失敗した render -/

def previouslySynced (cr : BunkerSecret) : Bool := (cr.status.bind (·.lastSyncTime)).isSome

def specUnchangedSinceSync (cr : BunkerSecret) : Bool :=
  cr.status.any fun s => s.observedGeneration == some cr.generation

/-- render の失敗の診断。待てば済むものは診断せずに error にする。 -/
def diagnose (formats : Formats) (cr : BunkerSecret) :
    RenderError → Except OperatorError (Reason × String)
  | .missingGroup group =>
    if previouslySynced cr && specUnchangedSinceSync cr then
      .ok (.accessRevoked, "group '" ++ group ++
        "' disappeared from the mirror after having synced; keeping the last applied Secret")
    else
      .ok (.missingGroup, "group '" ++ group ++
        "' is not in the mirror (no read grant, or not yet created)")
  | .missingSecret group name =>
    .ok (.missingSecret, "secret '" ++ group ++ "/" ++ name ++
      "' not found; keeping the last applied Secret")
  | .invalidKey keys =>
    .ok (.invalidKey, "rendered keys are not valid k8s Secret keys: " ++ formats.debug keys ++
      "; add rewrite rules or explicit data entries")
  | .json group name msg =>
    .ok (.jsonError, "'" ++ group ++ "/" ++ name ++ "' is not valid JSON: " ++ msg)
  | .pointer group name pointer =>
    .ok (.jsonError, "pointer '" ++ pointer ++ "' not found in '" ++ group ++ "/" ++ name ++ "'")
  | .notObject group name =>
    .ok (.jsonError, "'" ++ group ++ "/" ++ name ++ "' is not a JSON object; extract requires one")
  | .notYetSynced group name msg =>
    .error (.transient ("'" ++ group ++ "/" ++ name ++ "' not yet decryptable: " ++ msg))

variable (cfg : Config)

def handleRenderError (cr : BunkerSecret) (e : RenderError) :
    Prog World (Except OperatorError Action) :=
  match diagnose cfg.formats cr e with
  | .error err => pure (.error err)
  | .ok (reason, message) => do
    degrade cr reason message
    pure (.ok (.requeue cfg.resync))

/-! ## Secret -/

def getSecret (cr : BunkerSecret) (name : String) : Prog World (Option K8sSecret) :=
  .read fun w => (w.secrets name).map (·.read cr.nameSpace name)

/-- 所有を外す。無ければ 404 で失敗する。 -/
def orphanSecret (name : String) : Prog World Unit :=
  .attempt fun w => (w.secrets name).map fun s =>
    ((), { w with
      secrets := Function.update w.secrets name (some s.orphan)
      trace := w.trace ++ [.orphaned name] })

/-- 消す。無ければ 404 で失敗する。 -/
def deleteSecret (name : String) : Prog World Unit :=
  .attempt fun w => (w.secrets name).map fun _ =>
    ((), { w with
      secrets := Function.update w.secrets name none
      trace := w.trace ++ [.deleted name] })

/-- 改名の後始末。deletionPolicy に従い、所有する Secret だけを片付ける。 -/
def cleanupTarget (cr : BunkerSecret) (name : String) : Prog World Unit := do
  let existing ← getSecret cr name
  if existing.any (ownedBy · cr) then
    match cr.spec.deletionPolicy with
    | .delete => deleteSecret name
    | .retain => orphanSecret name
  else pure ()

/-- 今の中身の hash。data の無い Secret には無い。 -/
def contentHashOf (prim : Primitives) (existing : Option K8sSecret) : Option String :=
  (existing.bind (·.data)).map (contentHash prim)

/-- 中身が違うときだけ書く。annotation ではなく中身を比べる。 -/
def writeSecret (cr : BunkerSecret) (existing : Option K8sSecret) (desired : K8sSecret) :
    Prog World Unit :=
  if contentHashOf cfg.prim existing = desired.annotations.get? hashAnnotation then
    .modify fun w => w.record (.skipped cr.generation desired.name)
  else .modify fun w => { w with
    secrets := Function.update w.secrets desired.name
      (some (StoredSecret.apply (w.secrets desired.name) desired))
    trace := w.trace ++ [.applied cr.generation desired] }

/-- 前に書いた名前が今の target でなければ片付ける。 -/
def retirePrevious (cr : BunkerSecret) : Prog World Unit :=
  match cr.recordedTarget with
  | some prev => if prev = cr.targetName then pure () else cleanupTarget cr prev
  | none => pure ()

/-- 同期の済んだ時刻。replica から取れなければ、CR に残るものを引き継ぐ。 -/
def syncTime (cr : BunkerSecret) (lastSynced : Option Int) : Option Int :=
  ((lastSynced.bind cfg.formats.timestamp).map truncateToWirePrecision).or
    (cr.status.bind (·.lastSyncTime))

/-- 書き終えた後の status。途絶が長ければ Ready を下ろすが、中身は保つ。 -/
def reportSynced (cr : BunkerSecret) (data : SortedMap String Bytes) : Prog World Unit := do
  let stale ← .read fun w => w.disconnectedFor.any fun d => cfg.stalenessThreshold ≤ d
  (if stale then
    publishWarningOnTransition cr .staleReplica "bunker unreachable; serving last synced state"
  else pure ())
  let condition ← .read fun w =>
    if stale then
      readyCondition cr w.now false .staleReplica "bunker unreachable; serving last synced state"
    else readyCondition cr w.now true .synced ""
  let lastSynced ← .read fun w => syncTime cfg cr w.lastSynced
  patchStatus cr {
    conditions := [condition]
    lastSyncTime := lastSynced
    observedGeneration := some cr.generation
    syncedSecretKeys := data.keys
    targetSecretName := some cr.targetName }

/-- 作った中身を書く。所有しない Secret があれば、前の target にも手を付けずに止まる。 -/
def applyRendered (cr : BunkerSecret) (data : SortedMap String Bytes) :
    Prog World (Except OperatorError Action) := do
  let existing ← getSecret cr cr.targetName
  if existing.any (fun s => !ownedBy s cr) then do
    degrade cr .conflict ("Secret " ++ cr.nameSpace ++ "/" ++ cr.targetName ++
      " exists and is not owned by this BunkerSecret; refusing to adopt")
    pure (.ok (.requeue cfg.resync))
  else do
    let desired ← .orFail (buildSecret cfg.prim cr data)
    writeSecret cfg cr existing desired
    retirePrevious cr
    reportSynced cfg cr data
    pure (.ok (.requeue cfg.resync))

/-! ## 二つの腕 -/

/-- 同期を待っていることだけを知らせる。 -/
def awaitSync (cr : BunkerSecret) : Prog World (Except OperatorError Action) := do
  degrade cr .awaitingSync "replica has not completed its initial sync"
  pure (.ok (.requeue 5))

/-- finalizer の Apply の腕。 -/
def applyBunkerSecret (cr : BunkerSecret) : Prog World (Except OperatorError Action) := do
  let synced ← .read (·.lastSynced.isSome)
  if synced then do
    let rendered ← .read fun w => render cfg.formats
      (replicaSource cfg.prim cfg.own cfg.key w.mirror) cr.spec
    match rendered with
    | .error e => handleRenderError cfg cr e
    | .ok data => applyRendered cfg cr data
  else awaitSync cr

/-- finalizer の Cleanup の腕。Retain なら、GC に消されないように所有を外す。 -/
def cleanupBunkerSecret (cr : BunkerSecret) : Prog World (Except OperatorError Action) :=
  match cr.spec.deletionPolicy with
  | .delete => pure (.ok .awaitChange)
  | .retain => do
    let existing ← getSecret cr cr.targetName
    (if existing.any (ownedBy · cr) then orphanSecret cr.targetName else pure ())
    pure (.ok .awaitChange)

end Operator

end SecretBunker
