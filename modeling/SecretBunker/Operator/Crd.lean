import Mathlib.Data.String.Basic
import SecretBunker.Crypto
import SecretBunker.Lib.SortedMap

/-!
# BunkerSecret と Kubernetes の Secret

`operator/src/crd.rs` の型と、operator が読み書きする Secret。一つの BunkerSecret は、
operator の identity が読める group から一つの Secret を作る。

API server から受け取った CR は名前と generation を必ず持つので、その二つは Option にしない。
-/

namespace SecretBunker

open Ordered

namespace Operator

/-! ## spec -/

structure TargetSpec where
  name : Option String
  type : Option String
  deriving DecidableEq

inductive DeletionPolicy where
  | retain
  | delete
  deriving DecidableEq

structure RemoteRef where
  group : String
  name : String
  /-- JSON の値を指す RFC 6901 の pointer。 -/
  property : Option String
  deriving DecidableEq

structure DataEntry where
  secretKey : String
  remoteRef : RemoteRef
  deriving DecidableEq

structure Rewrite where
  source : String
  target : String
  deriving DecidableEq

inductive DataFromEntry where
  /-- group の secret をすべて並べ、名前を書き換える。 -/
  | group (name : String) (rewrite : List Rewrite)
  /-- JSON の object を鍵に分ける。 -/
  | extract (group name : String)
  deriving DecidableEq

structure BunkerSecretSpec where
  target : Option TargetSpec := none
  deletionPolicy : DeletionPolicy := .retain
  data : List DataEntry := []
  dataFrom : List DataFromEntry := []
  deriving DecidableEq

/-! ## status -/

/-- Ready condition の理由。 -/
inductive Reason where
  | awaitingSync
  | conflict
  | staleReplica
  | synced
  | accessRevoked
  | missingGroup
  | missingSecret
  | invalidKey
  | jsonError
  deriving DecidableEq

/-- 型が Ready の condition。時刻は epoch からの秒で、API server に置ける精度である。 -/
structure Condition where
  status : Bool
  reason : Reason
  message : String
  lastTransitionTime : Int
  observedGeneration : Int
  deriving DecidableEq

structure BunkerSecretStatus where
  conditions : List Condition := []
  lastSyncTime : Option Int := none
  observedGeneration : Option Int := none
  syncedSecretKeys : List String := []
  /-- 最後に書いた Secret の名前。target の改名の後始末に使う。 -/
  targetSecretName : Option String := none
  deriving DecidableEq

structure BunkerSecret where
  nameSpace : String
  name : String
  uid : Option String
  generation : Int
  /-- 削除を求められ、finalizer を待っている。 -/
  deleting : Bool
  spec : BunkerSecretSpec
  status : Option BunkerSecretStatus
  deriving DecidableEq

namespace BunkerSecret

/-- CR が作る Secret の名前。 -/
def targetName (cr : BunkerSecret) : String := (cr.spec.target.bind (·.name)).getD cr.name

/-- CR の読む group。 -/
def referencedGroups (cr : BunkerSecret) : List String :=
  cr.spec.data.map (·.remoteRef.group) ++ cr.spec.dataFrom.map fun
    | .group name _ => name
    | .extract group _ => group

/-- status に残る、前に書いた Secret の名前。 -/
def recordedTarget (cr : BunkerSecret) : Option String := cr.status.bind (·.targetSecretName)

/-- status に残る、前の condition。 -/
def recordedCondition (cr : BunkerSecret) : Option Condition := cr.status.bind (·.conditions.head?)

end BunkerSecret

/-! ## Secret -/

def hashAnnotation : String := "bunker.fables-for-robots.ch/content-hash"

/-- uid のほかの ownerReference。 -/
structure OwnerReference where
  apiVersion : String
  kind : String
  name : String
  controller : Bool
  deriving DecidableEq

/-- API server との間で受け渡す Secret。ownerReferences は uid を鍵とする列である。 -/
structure K8sSecret where
  name : String
  nameSpace : String
  annotations : SortedMap String String
  labels : SortedMap String String
  ownerReferences : SortedMap String OwnerReference
  type : String
  data : Option (SortedMap String Bytes)
  deriving DecidableEq

/-- Secret の controller がこの CR である。 -/
def ownedBy (secret : K8sSecret) (cr : BunkerSecret) : Bool :=
  match cr.uid with
  | none => false
  | some uid => (secret.ownerReferences.get? uid).any fun o => o.kind == "BunkerSecret"

end Operator

end SecretBunker
