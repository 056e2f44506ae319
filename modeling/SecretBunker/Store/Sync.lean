import SecretBunker.Store.Mutate
import SecretBunker.Sync

/-!
# mirror への反映

`src/store.rs` の、replica が受け取った group の状態を自分の database に写す関数。
`apply_group_sync` は一つの transaction で、五つの規則を順に行う。
-/

namespace SecretBunker

open Relational

/-- 反映で変わった secret。commit の後に event として流れる。 -/
inductive AppliedChange where
  | secretChanged (name : String) (version : Nat)
  | secretDeleted (name : String)
  deriving DecidableEq

namespace Store

variable (db : Db)

/-- mirror の現在の行が、一覧の行と `(version, dek_version, nonce)` で一致する。 -/
def unchanged (groupId : Nat) (entry : SecretEntry) : Bool :=
  match secretCurrent db groupId entry.name with
  | some row =>
    row.version == entry.currentVersion && row.dekVersion == entry.dekVersion
      && row.nonce == entry.nonce
  | none => false

/-- 取り寄せる secret の名前。状態の一覧の順に並ぶ。 -/
def secretsNeedingFetch (state : GroupSyncState) : List String :=
  match groupId db state.name with
  | none => state.secrets.map (·.name)
  | some groupId => (state.secrets.filter fun e => !unchanged db groupId e).map (·.name)

/-- ACL を後ろから見て、名前も endpoint id もまだ現れていない行を残す。 -/
def scanAcl : List AclEntry → List String → List String → List AclEntry
  | [], _, _ => []
  | e :: rest, names, endpoints =>
    -- `insert` の連言は短絡するので、名前で落ちた行は endpoint id を占めない
    if e.identityName ∈ names then scanAcl rest names endpoints
    else if e.endpointId ∈ endpoints then scanAcl rest (e.identityName :: names) endpoints
    else e :: scanAcl rest (e.identityName :: names) (e.endpointId :: endpoints)

/-- 名前と endpoint id の衝突を、後の行を優先して解いた ACL。 -/
def effectiveAcl (acl : List AclEntry) : List AclEntry := (scanAcl acl.reverse [] []).reverse

/-- 規則 1。同じ名前の古い鍵を消し、endpoint id で identity を揃える。 -/
def adoptIdentity (entry : AclEntry) : Option Db :=
  (db.deleteIdentity fun i => i.name == entry.identityName && i.endpointId != entry.endpointId)
    |>.upsertIdentity entry.endpointId entry.identityName

/-- 規則 2。ACL の行を一つ入れる。 -/
def adoptAcl (groupId : Nat) (entry : AclEntry) : Option Db := do
  let identity ← identityByEndpoint db entry.endpointId
  db.upsertAcl identity.id groupId entry.perms

/-- 規則 3。DEK の version と自分宛ての wrap を一つ入れる。 -/
def adoptDek (ownEndpoint : String) (groupId : Nat) (dek : DekEntry) : Option Db := do
  let db ← db.insertDekOrIgnore groupId dek.version
  db.upsertWrap groupId dek.version ownEndpoint dek.wrapped

/-- 状態に無い version の wrap と、ほかの recipient の wrap を消す。 -/
def dropStaleWraps (ownEndpoint : String) (groupId : Nat) (deks : List DekEntry) : Db :=
  db.deleteWrap fun w => w.groupId == groupId
    && (w.recipient != ownEndpoint || !(deks.any fun d => d.version == w.dekVersion))

/-- `(group, name)` の secret を消す。 -/
def eraseSecret (groupId : Nat) (name : String) : Db :=
  db.deleteSecret fun s => s.groupId == groupId && s.name == name

/-- 規則 4。取り寄せた secret で置き換える。 -/
def replaceSecret (groupId : Nat) (secret : FetchedSecret) : Option Db := do
  let (secretId, db) ← (eraseSecret db groupId secret.name).insertSecret groupId secret.name
    secret.version
  db.insertVersion ⟨secretId, secret.version, secret.dekVersion, secret.nonce, secret.ciphertext,
    secret.createdAt, secret.createdBy⟩

/-- 状態の一覧に無い、手元の secret の名前。 -/
def unlistedSecrets (groupId : Nat) (secrets : List SecretEntry) : List String :=
  (sortOn id ((db.secret.rows.filter fun s => s.groupId == groupId).map (·.name))).filter
    fun name => !(secrets.any fun e => e.name == name)

/-- group 一つを `state` に揃える。 -/
def applyGroupSync (ownEndpoint : String) (state : GroupSyncState) (fetched : List FetchedSecret) :
    Option (List AppliedChange × Db) := do
  let db := db.insertGroupOrIgnore state.name
  let groupId ← groupId db state.name
  let acl := effectiveAcl state.acl
  let db ← acl.foldlM adoptIdentity db
  let db ← acl.foldlM (fun db e => adoptAcl db groupId e) (db.deleteAcl (·.groupId == groupId))
  let db ← state.deks.foldlM (fun db d => adoptDek db ownEndpoint groupId d) db
  let db := dropStaleWraps db ownEndpoint groupId state.deks
  let db ← fetched.foldlM (fun db s => replaceSecret db groupId s) db
  -- 規則 5
  let removed := unlistedSecrets db groupId state.secrets
  some (fetched.map (fun s => .secretChanged s.name s.version) ++ removed.map .secretDeleted,
    removed.foldl (fun db name => eraseSecret db groupId name) db)

/-- group を mirror から外す。手元に無ければ false。 -/
def dropGroupLocal (name : String) : Bool × Db :=
  ((groupId db name).isSome, db.deleteGroup (·.name == name))

/-- どの ACL にも現れない identity を消す。 -/
def gcUnreferencedIdentities : Db :=
  db.deleteIdentity fun i => !(db.groupAcl.rows.any fun a => a.identityId == i.id)

/-! ## 衝突のない ACL -/

theorem scanAcl_keys (acl : List AclEntry) (names endpoints : List String) :
    (((scanAcl acl names endpoints).map (·.identityName)).Nodup ∧
      ∀ n ∈ names, n ∉ (scanAcl acl names endpoints).map (·.identityName)) ∧
    (((scanAcl acl names endpoints).map (·.endpointId)).Nodup ∧
      ∀ e ∈ endpoints, e ∉ (scanAcl acl names endpoints).map (·.endpointId)) := by
  induction acl generalizing names endpoints with
  | nil => simp [scanAcl]
  | cons e rest ih =>
    unfold scanAcl
    split
    · exact ih names endpoints
    · next hn =>
      split
      · obtain ⟨⟨hnd, hns⟩, he⟩ := ih (e.identityName :: names) endpoints
        exact ⟨⟨hnd, fun n hm => hns n (List.mem_cons_of_mem _ hm)⟩, he⟩
      · next he =>
        obtain ⟨⟨hnd, hns⟩, hnd', hes⟩ := ih (e.identityName :: names) (e.endpointId :: endpoints)
        simp only [List.map_cons, List.nodup_cons, List.mem_cons, not_or]
        refine ⟨⟨⟨hns _ List.mem_cons_self, hnd⟩, fun n hm => ⟨?_, hns n (List.mem_cons_of_mem _ hm)⟩⟩,
          ⟨hes _ List.mem_cons_self, hnd'⟩, fun x hx => ⟨?_, hes x (List.mem_cons_of_mem _ hx)⟩⟩
        · rintro rfl
          exact hn hm
        · rintro rfl
          exact he hx

theorem effectiveAcl_names_nodup (acl : List AclEntry) :
    ((effectiveAcl acl).map (·.identityName)).Nodup := by
  rw [effectiveAcl, List.map_reverse, List.nodup_reverse]
  exact (scanAcl_keys _ _ _).1.1

theorem effectiveAcl_endpoints_nodup (acl : List AclEntry) :
    ((effectiveAcl acl).map (·.endpointId)).Nodup := by
  rw [effectiveAcl, List.map_reverse, List.nodup_reverse]
  exact (scanAcl_keys _ _ _).2.1

/-- 重なりの無い ACL は、そのまま残る。 -/
theorem scanAcl_of_nodup {acl : List AclEntry} {names endpoints : List String}
    (hn : (acl.map (·.identityName)).Nodup) (he : (acl.map (·.endpointId)).Nodup)
    (hns : ∀ e ∈ acl, e.identityName ∉ names) (hes : ∀ e ∈ acl, e.endpointId ∉ endpoints) :
    scanAcl acl names endpoints = acl := by
  induction acl generalizing names endpoints with
  | nil => rfl
  | cons e rest ih =>
    rw [List.map_cons, List.nodup_cons] at hn he
    rw [scanAcl, if_neg (hns e List.mem_cons_self), if_neg (hes e List.mem_cons_self)]
    rw [ih hn.2 he.2]
    · intro x hx
      rw [List.mem_cons, not_or]
      exact ⟨fun heq => hn.1 (heq ▸ List.mem_map_of_mem hx), hns x (List.mem_cons_of_mem _ hx)⟩
    · intro x hx
      rw [List.mem_cons, not_or]
      exact ⟨fun heq => he.1 (heq ▸ List.mem_map_of_mem hx), hes x (List.mem_cons_of_mem _ hx)⟩

/-- 権威 node の ACL には衝突が無いので、そのまま残る。 -/
theorem effectiveAcl_of_nodup {acl : List AclEntry} (hn : (acl.map (·.identityName)).Nodup)
    (he : (acl.map (·.endpointId)).Nodup) : effectiveAcl acl = acl := by
  rw [effectiveAcl, scanAcl_of_nodup, List.reverse_reverse]
  · rwa [List.map_reverse, List.nodup_reverse]
  · rwa [List.map_reverse, List.nodup_reverse]
  · simp
  · simp

end Store

end SecretBunker
