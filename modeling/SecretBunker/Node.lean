import Mathlib.Data.List.Induction
import SecretBunker.Crypto.Plain
import SecretBunker.Server.Handler

/-!
# 権威 node

client の要求と、`src/main.rs` の offline の操作（`init`、`db grant`、`recover`、開き直し）。

offline の操作は server を止めて行うので、要求はそのときの database を開けた bunker
（`Bunker.new` の照合を通ったもの）が処理する。
-/

namespace SecretBunker

open Relational

namespace Node

variable (prim : Primitives)

/-- `init` の直後の database。 -/
def init (operationalPubkey backupPubkey adminEndpointId adminName : String) : Option Db :=
  Store.init (Store.openDb Db.empty) operationalPubkey backupPubkey adminEndpointId adminName

/-- `r`、`w`、`a` の並び、または `none`。 -/
def parsePerms (s : String) : Option UInt8 :=
  if s = "none" then some 0
  else s.toList.foldlM (fun perms c =>
    if c = 'r' then some (perms ||| permRead)
    else if c = 'w' then some (perms ||| permWrite)
    else if c = 'a' then some (perms ||| permAdmin)
    else none) 0

/-- 記録された公開鍵を recipient として読む。 -/
def recordedRecipient (db : Db) (key : String) : Option Recipient :=
  (Store.metaGet db key).bind prim.parseAgeRecipient

/-- READ を得る identity に宛てた wrap。残っている version の operational の wrap を順に開く。 -/
def wrapsForGrantee (op : AgeIdentity) (seed : Nat → String → Bytes) (db : Db) (groupId : Nat)
    (endpointId : String) : Option (List (Nat × Bytes)) := do
  let recipient ← recipientForEndpointHex prim endpointId
  (Store.dekVersions db groupId).foldlM (fun wraps version => do
    let wrappedOp ← Store.dekWrap db groupId version recipientOperational
    let dek ← unwrapDek prim wrappedOp op
    some (wraps ++ [(version, wrapDek prim (seed version endpointId) dek recipient)])) []

/-- READ を失う identity を除いた、新しい DEK の wrap。公開鍵だけで作る。 -/
def wrapsAfterRevoke (opRecipient backupRecipient : Recipient) (seed : String → Bytes) (db : Db)
    (groupId : Nat) (dek : Dek) (endpointId : String) : Option (List (String × Bytes)) :=
  (Store.readGrantedIdentities db groupId).foldlM (fun wraps reader =>
    if reader.endpointId = endpointId then some wraps
    else do
      let recipient ← recipientForEndpointHex prim reader.endpointId
      some (wraps ++ [(reader.endpointId, wrapDek prim (seed reader.endpointId) dek recipient)]))
    [(recipientOperational, wrapDek prim (seed recipientOperational) dek opRecipient),
      (recipientBackup, wrapDek prim (seed recipientBackup) dek backupRecipient)]

/-- `db grant` の書き込み。server の手順を、自分の loop でなぞる。 -/
def grantLocally (amb : Ambient) (db : Db) (groupId : Nat) (group identity : String)
    (target : Identity) (perms : UInt8) (operationalKey : Option AgeIdentity) : Option Db :=
  let audit := fun db op target => Store.audit db prim amb.now "(local)" op target "ok"
  let auditTarget := group ++ ":" ++ identity
  match hasBit (Store.perms db target.id groupId) permRead, hasBit perms permRead with
  | false, true => do
    let op ← operationalKey
    let recorded ← Store.metaGet db "operational_pubkey"
    if (prim.toPublic op).bech32 ≠ recorded then none
    else
      let wraps ← wrapsForGrantee prim op (amb.seed 0) db groupId target.endpointId
      let db ← Store.grantWithWraps db target.id groupId perms wraps target.endpointId
      some (audit db "db-grant" auditTarget)
  | true, false => do
    let opRecipient ← recordedRecipient prim db "operational_pubkey"
    let backupRecipient ← recordedRecipient prim db "backup_pubkey"
    let wraps ← wrapsAfterRevoke prim opRecipient backupRecipient (amb.seed 0 0) db groupId
      (amb.dek 0) target.endpointId
    let (_, db) ← Store.revokeReadAndRotate db groupId target.id perms target.endpointId wraps
    some (audit (audit db "db-grant" auditTarget) "rotate-dek" group)
  | _, _ => do
    let db ← Store.setPerms db target.id groupId perms
    some (audit db "db-grant" auditTarget)

/-- `db grant`。開いた database に対する本体である。 -/
def dbGrant (amb : Ambient) (db : Db) (group identity perms : String)
    (operationalKey : Option AgeIdentity) : Option Db :=
  if !Store.isInitialized db then none
  else do
    let perms ← parsePerms perms
    let groupId ← Store.groupId db group
    let target ← Store.identityByName db identity
    grantLocally prim amb db groupId group identity target perms operationalKey

/-- `recover`。backup の wrap をすべて開いて新しい operational key に包み直す。 -/
def recover (amb : Ambient) (db : Db) (backup : AgeIdentity) (newOperationalPubkey : String) :
    Option Db := do
  let newOp ← prim.parseAgeRecipient newOperationalPubkey
  if !Store.isInitialized db then none
  else
    let rewrapped ← (Store.allWrapsForRecipient db recipientBackup).mapM fun w =>
      (unwrapDek prim w.2.2 backup).map fun dek =>
        (w.1, w.2.1, wrapDek prim (amb.seed w.1 w.2.1 recipientOperational) dek newOp)
    Store.applyRecovery db rewrapped newOp.bech32

/-! ## 二つの書き方 -/

theorem foldlM_snoc {α β : Type} (f : α → Option β) (l : List α) (init : List β) :
    l.foldlM (fun acc a => (f a).map fun b => acc ++ [b]) init = (l.mapM f).map (init ++ ·) := by
  induction l generalizing init with
  | nil => simp
  | cons a l ih =>
    rw [List.foldlM_cons, List.mapM_cons]
    cases f a with
    | none => rfl
    | some b =>
      show List.foldlM _ (init ++ [b]) l = _
      rw [ih]
      cases l.mapM f <;> simp

/-- `db grant` の loop は、server の `wraps_for_new_reader` と同じ wrap を作る。 -/
theorem wrapsForGrantee_eq (op : AgeIdentity) (seed : Nat → String → Bytes) (db : Db)
    (groupId : Nat) (endpointId : String) :
    wrapsForGrantee prim op seed db groupId endpointId =
      Bunker.wrapsForNewReader prim op seed db groupId endpointId := by
  unfold wrapsForGrantee Bunker.wrapsForNewReader
  cases recipientForEndpointHex prim endpointId with
  | none => rfl
  | some recipient =>
    refine Eq.trans (congrArg (List.foldlM · [] _) ?_) ((foldlM_snoc (fun version => do
      let dek ← Bunker.unwrapOperational prim op db groupId version
      some (version, wrapDek prim (seed version endpointId) dek recipient)) _ []).trans ?_)
    · funext wraps version
      unfold Bunker.unwrapOperational
      cases Store.dekWrap db groupId version recipientOperational with
      | none => rfl
      | some wrapped =>
        show (unwrapDek prim wrapped op).bind _ = ((unwrapDek prim wrapped op).bind _).map _
        cases unwrapDek prim wrapped op <;> rfl
    · exact Option.map_id'

/-- `db grant` の loop は、server の `wrap_set_for_group` と同じ wrap を作る。 -/
theorem wrapsAfterRevoke_eq (opRecipient backupRecipient : Recipient) (seed : String → Bytes)
    (db : Db) (groupId : Nat) (dek : Dek) (endpointId : String) :
    wrapsAfterRevoke prim opRecipient backupRecipient seed db groupId dek endpointId =
      Bunker.wrapSetForGroup prim opRecipient backupRecipient seed db groupId dek
        (some endpointId) := by
  unfold wrapsAfterRevoke Bunker.wrapSetForGroup
  have hstep : (fun (wraps : List (String × Bytes)) (reader : Identity) =>
      if reader.endpointId = endpointId then some wraps
      else (recipientForEndpointHex prim reader.endpointId).bind fun recipient =>
        some (wraps ++ [(reader.endpointId, wrapDek prim (seed reader.endpointId) dek recipient)])) =
      fun wraps reader => if decide (some reader.endpointId ≠ some endpointId) then
        (Bunker.wrapForReader prim seed dek reader.endpointId).map fun w => wraps ++ [w]
      else some wraps := by
    funext wraps reader
    unfold Bunker.wrapForReader
    by_cases h : reader.endpointId = endpointId
    · simp [h]
    · have hne : some reader.endpointId ≠ some endpointId := fun he => h (Option.some.inj he)
      rw [if_neg h, decide_eq_true hne, if_pos rfl]
      cases recipientForEndpointHex prim reader.endpointId <;> rfl
  refine (congrArg (List.foldlM · _ _) hstep).trans (List.foldlM_filter.symm.trans ?_)
  rw [foldlM_snoc]
  exact Option.map_eq_bind

/-! ## 操作の列 -/

/-- 権威 node の database を動かす操作。 -/
inductive Op where
  /-- operational key を持って開いた bunker が、認証された peer の要求を処理する。 -/
  | handle (opIdentity : AgeIdentity) (remote : String) (req : Request)
  | dbGrant (group identity perms : String) (operationalKey : Option AgeIdentity)
  | recover (backup : AgeIdentity) (newOperationalPubkey : String)
  | reopen
  deriving DecidableEq

/-- 操作一つの結果。応答があるのは要求だけで、開けない bunker は何も処理しない。 -/
def step (db : Db) (op : Op) (amb : Ambient) : Option Response × Db :=
  match op with
  | .handle opIdentity remote req =>
    match Bunker.new prim db opIdentity with
    | none => (none, db)
    | some inner =>
      let handled := Bunker.handle prim inner amb db remote req
      (some handled.response, handled.db)
  | .dbGrant group identity perms key =>
    (none, (dbGrant prim amb (Store.openDb db) group identity perms key).getD (Store.openDb db))
  | .recover backup pubkey =>
    (none, (recover prim amb (Store.openDb db) backup pubkey).getD (Store.openDb db))
  | .reopen => (none, Store.openDb db)

/-- 操作の列を順に行った後の database。 -/
def exec (db : Db) (ops : List (Op × Ambient)) : Db :=
  ops.foldl (fun db op => (step prim db op.1 op.2).2) db

@[simp] theorem exec_nil (db : Db) : exec prim db [] = db := rfl

theorem exec_append (db : Db) (xs ys : List (Op × Ambient)) :
    exec prim db (xs ++ ys) = exec prim (exec prim db xs) ys := List.foldl_append

theorem exec_snoc (db : Db) (xs : List (Op × Ambient)) (op : Op) (amb : Ambient) :
    exec prim db (xs ++ [(op, amb)]) = (step prim (exec prim db xs) op amb).2 := by
  rw [exec_append]
  rfl

/-- 一歩で保たれる性質は、操作の列のどこでも成り立つ。 -/
theorem exec_induction {motive : Db → Prop} {db : Db} (h₀ : motive db)
    (hstep : ∀ db op amb, motive db → motive (step prim db op amb).2) (ops : List (Op × Ambient)) :
    motive (exec prim db ops) := by
  induction ops using List.reverseRecOn with
  | nil => exact h₀
  | append_singleton xs x ih =>
    rw [exec_snoc]
    exact hstep _ _ _ ih

end Node

/-! ## 実行できる例 -/

/-- 同じ文字を並べた EndpointId。 -/
def samplePeer (c : Char) : String := String.ofList (List.replicate 64 c)

/-- nonce の先頭が `n` の乱数。 -/
def sampleAmbient (n : UInt8) : Ambient where
  now := 0
  dek := fun _ => ⟨List.replicate 32 n, rfl⟩
  seed := fun _ _ _ => []
  nonce := ⟨n :: List.replicate 11 0, rfl⟩

/-- 初期化だけを済ませた database。 -/
def sampleDb : Db := (Node.init "o" "b" (samplePeer 'a') "admin").get (by decide)

theorem init_sampleDb : Node.init "o" "b" (samplePeer 'a') "admin" = some sampleDb :=
  (Option.some_get _).symm

/-- operational key を持った bunker への要求の列。 -/
def sampleCalls (calls : List (Char × Request)) : List (Node.Op × Ambient) :=
  calls.zipIdx.map fun c =>
    (.handle ⟨"o"⟩ (samplePeer c.1.1) c.1.2, sampleAmbient (UInt8.ofNat (c.2 + 1)))

/-- `sampleDb` を開いた bunker。 -/
def sampleInner : Inner := ⟨⟨"o"⟩, ⟨"o"⟩, ⟨"b"⟩⟩

/-- 読めるようになった reader。 -/
def sampleGranted : List (Node.Op × Ambient) :=
  sampleCalls [('a', .createGroup "g"), ('a', .addIdentity "bob" (samplePeer 'b') false),
    ('a', .grant "g" "bob" permRead)]

end SecretBunker
