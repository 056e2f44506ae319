import SecretBunker.Keys.Turn
import SecretBunker.Server.Effect

/-!
# 要求と offline の操作の、鍵の側の効果

`Bunker.handle`、`db grant`、開き直しはどれも一つの `Turn` である。
-/

namespace SecretBunker

open Relational Store

variable {prim : Primitives} {db db' : Db} {inner : Inner} {amb : Ambient} {ident : Identity}

/-! ## 開いた bunker の鍵 -/

theorem recipientOf_operational :
    recipientOf prim db recipientOperational =
      Node.recordedRecipient prim db "operational_pubkey" := if_pos rfl

theorem recipientOf_backup :
    recipientOf prim db recipientBackup = Node.recordedRecipient prim db "backup_pubkey" := by
  unfold recipientOf
  rw [if_neg (by decide), if_pos rfl]

/-- 開いた bunker の公開鍵は、database に記録されたものである。 -/
structure Inner.Matches (prim : Primitives) (inner : Inner) (db : Db) : Prop where
  identity : inner.opRecipient = prim.toPublic inner.opIdentity
  operational : recipientOf prim db recipientOperational = some inner.opRecipient
  backup : recipientOf prim db recipientBackup = some inner.backupRecipient

/-- bunker が開くのは、印が replica でなく、渡した鍵が記録の鍵で、backup の記録が読めるときである。 -/
theorem new_eq_some {op : AgeIdentity} : Bunker.new prim db op = some inner ↔
    metaGet db "role" ≠ some "replica" ∧
      metaGet db "operational_pubkey" = some (prim.toPublic op).bech32 ∧
      Node.recordedRecipient prim db "backup_pubkey" = some inner.backupRecipient ∧
      inner.opIdentity = op ∧ inner.opRecipient = prim.toPublic op := by
  unfold Bunker.new
  constructor
  · intro h
    split at h
    · cases h
    · next hrole =>
      obtain ⟨recorded, hrec, h⟩ := Option.bind_eq_some_iff.mp h
      split at h
      · cases h
      · next hkey =>
        obtain ⟨text, htext, h⟩ := Option.bind_eq_some_iff.mp h
        obtain ⟨recipient, hparse, h⟩ := Option.bind_eq_some_iff.mp h
        cases h
        refine ⟨hrole, by rw [hrec, not_not.mp hkey], ?_, rfl, rfl⟩
        exact Option.bind_eq_some_iff.mpr ⟨text, htext, hparse⟩
  · rintro ⟨hrole, hrec, hback, rfl, hop⟩
    obtain ⟨text, htext, hparse⟩ := Option.bind_eq_some_iff.mp hback
    rw [if_neg hrole, hrec, htext]
    show (if _ ≠ _ then none else (prim.parseAgeRecipient text).bind _) = _
    rw [if_neg (not_not.mpr rfl), hparse, ← hop]
    rfl

theorem matches_of_new (laws : prim.Lawful) {op : AgeIdentity}
    (h : Bunker.new prim db op = some inner) : inner.Matches prim db ∧ inner.opIdentity = op := by
  obtain ⟨-, hrec, hback, hid, hop⟩ := new_eq_some.mp h
  refine ⟨⟨by rw [hop, hid], ?_, by rw [recipientOf_backup, hback]⟩, hid⟩
  rw [recipientOf_operational, Node.recordedRecipient, hrec, Option.bind_some, hop]
  exact laws.parse_public _

theorem Inner.Matches.of_meta (h : inner.Matches prim db) (hm : db'.metadata = db.metadata) :
    inner.Matches prim db' :=
  ⟨h.identity, (recipientOf_congr hm _).trans h.operational, (recipientOf_congr hm _).trans h.backup⟩

/-! ## 要求 -/

theorem Turn.of_secrets (hend : EndpointsHex db) (h : ∃ t u hg hv, db' = db.withSecrets t u hg hv) :
    Turn prim db db' := by
  obtain ⟨t, u, hg, hv, rfl⟩ := h
  exact .of_keep rfl (fun _ _ => Iff.rfl) rfl rfl hend rfl

theorem Turn.auditRotations (h : Turn prim db db') (now : Int) (e : String)
    (groups : List String) : Turn prim db (Bunker.auditRotations prim db' now e groups) := by
  obtain ⟨log, hlog⟩ := @auditRotations_only prim db' now e groups
  rw [hlog]
  exact h.audit log

theorem turn_addIdentity (hend : EndpointsHex db) {name e : String} {admin : Bool}
    (hlen : e.length = 64) (h : Store.addIdentity db name e admin = some db') :
    Turn prim db db' := by
  have hr := holdsRead_addIdentity h
  obtain ⟨i, t, ht, hie, -, -, rfl, hmem⟩ := addIdentity_spec h
  refine .of_keep rfl hr rfl rfl (fun j hj => ?_) rfl
  rcases (hmem j).mp hj with hj | rfl
  · exact hend j hj
  · rw [hie, hlen]

theorem turn_setServiceAdmin (hend : EndpointsHex db) (name : String) (admin : Bool) :
    Turn prim db (db.setServiceAdmin name admin) := by
  refine .of_keep rfl (fun e gid => holdsRead_setServiceAdmin e gid) rfl rfl (fun j hj => ?_) rfl
  obtain ⟨i, hi, rfl⟩ := mem_setServiceAdmin.mp hj
  rw [Db.flagAdmin_endpointId]
  exact hend i hi

/-- どの要求も、鍵の一歩である。 -/
theorem turn_effect (laws : prim.Lawful) (hend : EndpointsHex db) (hm : inner.Matches prim db)
    (hident : ident ∈ db.identity) {req : Request} {resp : Response}
    (h : Effect prim inner amb db ident req resp db') : Turn prim db db' := by
  cases h with
  | none _ => exact .refl hend
  | put _ _ _ stored => exact .of_secrets hend (putSecret_only stored)
  | delete _ removed => exact .of_secrets hend (deleteSecret_only removed)
  | createGroup _ _ wrapped created =>
    exact .of_createGroup hend hident hm.operational hm.backup (by decide) wrapped created
  | addIdentity _ valid added =>
    exact turn_addIdentity hend (laws.endpoint_text _ _ valid) added
  | removeIdentity _ named rotated removed =>
    obtain ⟨ht, rfl⟩ := identityByName_eq_some.mp named
    exact (Turn.of_remove hend ht hm.operational hm.backup rotated
      (removed_rotates rotated removed)).auditRotations _ _ _
  | setServiceAdmin _ _ _ => exact turn_setServiceAdmin hend _ _
  | gainRead _ named before after wrapped granted =>
    exact .of_grant hend (identityByName_eq_some.mp named).1 before after wrapped granted
  | loseRead _ named before after wrapped revoked =>
    exact (Turn.of_revoke hend (identityByName_eq_some.mp named).1 hm.operational hm.backup before
      after wrapped revoked).auditRotations _ _ _
  | keepRead _ named same set =>
    exact .of_aclSet hend (identityByName_eq_some.mp named).1 (aclSet_setPerms set) same
  | rotateDek _ wrapped added => exact .of_addDek hend hm.operational hm.backup wrapped added

theorem turn_dispatch (laws : prim.Lawful) (hend : EndpointsHex db) (hm : inner.Matches prim db)
    (remote : String) (req : Request) : Turn prim db (Bunker.dispatch prim inner amb db remote req).2 := by
  rcases dispatch_cases remote req with ⟨-, h⟩ | ⟨ident, hident, h⟩
  · rw [h]
    exact .refl hend
  · exact turn_effect laws hend hm (identityByEndpoint_eq_some.mp hident).1 h

/-- **要求一つの鍵の側の効果は、一つの `Turn` である。** -/
theorem turn_handle (laws : prim.Lawful) (hend : EndpointsHex db) (hm : inner.Matches prim db)
    (remote : String) (req : Request) : Turn prim db (Bunker.handle prim inner amb db remote req).db :=
  (turn_dispatch laws hend hm remote req).audit _

/-! ## offline の操作 -/

/-- 開き直しは meta の表にしか触れず、公開鍵の記録を変えない。 -/
theorem openDb_spec (db : Db) : ∃ t, openDb db = db.withMeta t ∧
    ∀ k, k ≠ "role" → k ≠ "schema_version" → metaGet (db.withMeta t) k = metaGet db k := by
  unfold openDb
  split
  · refine ⟨_, rfl, fun k hr hs => ?_⟩
    exact (metaGet_insertMetaOrIgnore hs).trans (metaGet_insertMetaOrIgnore hr)
  · exact ⟨_, rfl, fun k _ hs => metaGet_insertMetaOrIgnore hs⟩

theorem recipientOf_openDb (db : Db) (r : String) :
    recipientOf prim (openDb db) r = recipientOf prim db r := by
  obtain ⟨t, ht, hkeys⟩ := openDb_spec db
  rw [ht]
  unfold recipientOf Node.recordedRecipient
  rw [hkeys _ (by decide) (by decide), hkeys _ (by decide) (by decide)]

theorem turn_openDb (hend : EndpointsHex db) : Turn prim db (openDb db) := by
  have hr : ∀ r, recipientOf prim (openDb db) r = recipientOf prim db r := recipientOf_openDb db
  obtain ⟨t, ht, -⟩ := openDb_spec db
  rw [ht] at hr ⊢
  exact ⟨hr, fun gid => .keep (fun _ => Iff.rfl) (fun _ => Iff.rfl) (fun _ _ => Iff.rfl), hend,
    fun _ h => h, fun _ h => Or.inl h⟩

theorem turn_localEffect (hend : EndpointsHex db) (h : LocalEffect prim amb db db') :
    Turn prim db db' := by
  cases h with
  | gainRead target before after wrapped granted =>
    exact (Turn.of_grant hend target before after wrapped granted).audit _
  | loseRead target before after operational backup wrapped revoked =>
    exact (Turn.of_revoke hend target (recipientOf_operational.trans operational)
      (recipientOf_backup.trans backup) before after wrapped revoked).audit _
  | keepRead target same set => exact (Turn.of_aclSet hend target (aclSet_setPerms set) same).audit _

end SecretBunker
