import SecretBunker.Lib.Program
import SecretBunker.Server.Sync
import SecretBunker.Store.Sync

/-!
# replica の同期の手続き

`src/replica.rs` の、受け取った状態を mirror に写す手続き。mirror の store の lock も、
上流が fetch の stream に答えるときの lock も、一度の読み書きの間だけ握られる。
手続きは lock 一回ぶんの動作の列で、その間に上流では要求が進む。

fetch の stream の message は、送られた順にすべて届くか、stream ごと失敗する。
失敗は手続きの途中での打ち切りとして、走らせる側が扱う。
-/

namespace SecretBunker

open Interleaving

inductive ReplicaEvent where
  | secretChanged (group name : String) (version : Nat)
  | secretDeleted (group name : String)
  | groupAdded (group : String)
  | groupRemoved (group : String)
  | connected
  | disconnected
  deriving DecidableEq

/-- event の言う group。 -/
def ReplicaEvent.group : ReplicaEvent → Option String
  | .secretChanged group _ _ => some group
  | .secretDeleted group _ => some group
  | .groupAdded group => some group
  | .groupRemoved group => some group
  | .connected => none
  | .disconnected => none

/-- 手続きの触れるもの：上流、mirror の store、時刻、流した event と同期の状態。 -/
structure Link (Υ : Type) where
  upstream : Υ
  mirror : Db
  now : Int
  events : List ReplicaEvent
  connected : Bool
  lastSynced : Option Int

/-- 取り寄せの stream に答える相手。返事は stream が終わるまでの message の列である。 -/
structure Upstream (Υ : Type) where
  fetchGroup : String → Prog (Link Υ) (List SyncMessage)
  fetchSecrets : String → List String → Prog (Link Υ) (List SyncMessage)

namespace Replica

variable {Υ : Type}

def emit (event : ReplicaEvent) : Prog (Link Υ) Unit :=
  .modify fun l => { l with events := l.events ++ [event] }

def touchLastSynced : Prog (Link Υ) Unit := .modify fun l => { l with lastSynced := some l.now }

/-- 切り替わったときだけ event を流す。 -/
def setConnected (l : Link Υ) : Link Υ :=
  if l.connected then l else { l with connected := true, events := l.events ++ [.connected] }

def setDisconnected (l : Link Υ) : Link Υ :=
  if l.connected then { l with connected := false, events := l.events ++ [.disconnected] } else l

/-! ## 上流 -/

/-- 名前ごとに一度ずつ lock を取って行を読む。 -/
def fetchRows (groupId : Nat) : List String → Prog (Link Db) (List SyncMessage)
  | [] => pure []
  | name :: names => do
    let row ← .read fun l => SyncServer.secretMessage l.upstream groupId name
    let rest ← fetchRows groupId names
    pure (row ++ rest)

/-- 権威 node。store の lock は、`FetchGroup` では一度、`FetchSecrets` では名前ごとに取る。 -/
def node (prim : Primitives) (own : String) : Upstream Db where
  fetchGroup group := .atomic fun l =>
    let answer := SyncServer.fetchGroup prim l.upstream l.now own group
    (answer.1, { l with upstream := answer.2 })
  fetchSecrets group names := do
    let authorized ← .atomic fun l =>
      let answer := SyncServer.authorizeFetchSecrets prim l.upstream l.now own group
      (answer.1, { l with upstream := answer.2 })
    match authorized with
    | none => pure [.syncDenied]
    | some groupId => do
      let rows ← fetchRows groupId names
      pure (rows ++ [.fetchDone])

/-- これから届く返事の列。 -/
abbrev Replies := List (List SyncMessage)

/-- 何を返すか分からない相手。返事が尽きたら stream は失敗する。 -/
def scripted : Upstream Replies where
  fetchGroup _ := .attempt fun l => l.upstream.head?.map fun reply =>
    (reply, { l with upstream := l.upstream.tail })
  fetchSecrets _ _ := .attempt fun l => l.upstream.head?.map fun reply =>
    (reply, { l with upstream := l.upstream.tail })

variable (up : Upstream Υ) (prim : Primitives) (own : String)

/-! ## 取り寄せ -/

/-- `FetchGroup`。拒まれたら `none`。 -/
def fetchGroupState (group : String) : Prog (Link Υ) (Option GroupSyncState) := do
  let messages ← up.fetchGroup group
  .orFail (Sync.collectGroup { name := group } messages)

/-- `FetchSecrets`。拒まれたら `none`。もう無い名前は返らない。 -/
def fetchSecrets (group : String) (names : List String) :
    Prog (Link Υ) (Option (List FetchedSecret)) := do
  let messages ← up.fetchSecrets group names
  .orFail (Sync.collectSecrets [] messages)

/-! ## 反映 -/

/-- 反映の結果。`applied` の印は、wrap の無い行を差し控えたことを表す。 -/
inductive ApplyOutcome where
  | applied (skippedUndecryptable : Bool)
  | denied
  deriving DecidableEq

/-- 反映の変化を知らせる event。 -/
def changeEvent (group : String) : AppliedChange → ReplicaEvent
  | .secretChanged name version => .secretChanged group name version
  | .secretDeleted name => .secretDeleted group name

/-- 状態に wrap のある行。ほかの行を写すと、次から取り寄せの対象にならず読めないまま残る。 -/
def decryptable (state : GroupSyncState) (fetched : List FetchedSecret) : List FetchedSecret :=
  fetched.filter fun s => state.deks.any fun d => d.version == s.dekVersion

/-- 一つの transaction で状態を写し、replica の audit に残す。 -/
def commitState (state : GroupSyncState) (fetched : List FetchedSecret) :
    Prog (Link Υ) (List AppliedChange) :=
  .attempt fun l => (Store.applyGroupSync l.mirror own state fetched).map fun applied =>
    (applied.1, { l with
      mirror := Store.audit applied.2 prim l.now "(sync)" "sync-apply" state.name "ok" })

/-- 状態が古くした secret。無ければ stream を開かない。 -/
def fetchNeeded (group : String) (needed : List String) :
    Prog (Link Υ) (Option (List FetchedSecret)) :=
  if needed.isEmpty then pure (some []) else fetchSecrets up group needed

/-- commit の後に流す event。 -/
def announcements (group : String) (wasAbsent : Bool) (changes : List AppliedChange) :
    List ReplicaEvent :=
  (if wasAbsent then [.groupAdded group] else []) ++ changes.map (changeEvent group)

def applyGroupState (state : GroupSyncState) : Prog (Link Υ) ApplyOutcome := do
  let needed ← .read fun l =>
    (Store.secretsNeedingFetch l.mirror state, (Store.groupId l.mirror state.name).isNone)
  match ← fetchNeeded up state.name needed.1 with
  | none => pure .denied
  | some fetched => do
    let changes ← commitState prim own state (decryptable state fetched)
    (announcements state.name needed.2 changes).forM emit
    touchLastSynced
    pure (.applied ((decryptable state fetched).length != fetched.length))

/-- mirror から group を落とし、持っていたなら知らせる。 -/
def dropGroup (name : String) : Prog (Link Υ) Unit := do
  let dropped ← .atomic fun l =>
    let answer := Store.dropGroupLocal l.mirror name
    (answer.1, { l with mirror := answer.2 })
  if dropped then emit (.groupRemoved name)

def gcIdentities : Prog (Link Υ) Unit :=
  .modify fun l => { l with mirror := Store.gcUnreferencedIdentities l.mirror }

def dropGroupAndGc (name : String) : Prog (Link Υ) Unit := do
  dropGroup name
  gcIdentities

/-- 一つの group を揃える。読めない行を差し控えたら、一度だけ取り寄せ直す。 -/
def syncOneGroup (state : GroupSyncState) : Prog (Link Υ) Unit := do
  match ← applyGroupState up prim own state with
  | .applied false => pure ()
  | .applied true =>
    match ← fetchGroupState up state.name with
    | some fresh =>
      match ← applyGroupState up prim own fresh with
      | .denied => dropGroupAndGc state.name
      | .applied _ => pure ()
    | none => dropGroupAndGc state.name
  | .denied => dropGroupAndGc state.name

/-- `Changed` を受け取ったとき。 -/
def syncGroupViaFetch (group : String) : Prog (Link Υ) Unit := do
  match ← fetchGroupState up group with
  | some state => syncOneGroup up prim own state
  | none => dropGroupAndGc group

/-- 揃った manifest を写し、載っていない group を落とす。 -/
def fullResync (stash : List GroupSyncState) : Prog (Link Υ) Unit := do
  stash.forM (syncOneGroup up prim own)
  let stale ← .read fun l => (Store.replicaGroupNames l.mirror).filter fun name =>
    !(stash.any fun s => s.name == name)
  stale.forM dropGroup
  gcIdentities
  touchLastSynced

/-! ## 手元の読み取り -/

/-- 手元の mirror から一つ復号する。暗号の失敗の文言は区別しない。 -/
def get (key : AgeIdentity) (mirror : Db) (group name : String) : Except String Bytes :=
  match Store.groupId mirror group with
  | none => .error ("no group '" ++ group ++ "' in the local mirror")
  | some groupId =>
    match Store.secretCurrent mirror groupId name with
    | none => .error ("no secret '" ++ name ++ "' in group '" ++ group ++ "'")
    | some sv =>
      match Store.dekWrap mirror groupId sv.dekVersion own with
      | none => .error ("no DEK wrap for group '" ++ group ++ "' version " ++ toString sv.dekVersion
          ++ " — not yet synced")
      | some wrapped =>
        match (unwrapDek prim wrapped key).bind fun dek => decryptSecret prim dek
            (secretAad group name sv.version sv.dekVersion) sv.nonce sv.ciphertext with
        | none => .error "secret decryption failed (wrong key or tampered data)"
        | some plaintext => .ok plaintext

/-- group の secret の名前と version。 -/
def list (mirror : Db) (group : String) : Except String (List (String × Nat)) :=
  match Store.groupId mirror group with
  | none => .error ("no group '" ++ group ++ "' in the local mirror")
  | some groupId => .ok (Store.listSecrets mirror groupId)

end Replica

end SecretBunker
