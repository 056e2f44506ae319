import SecretBunker.Server.Frame
import SecretBunker.Server.Atomicity

/-!
# 災害からの復旧

`recover` は backup の wrap を一つずつ開き、operational の wrap を新しい鍵に包み直す。見るのは backup の
wrap だけなので、どの DEK も取り残さないのは、どの version にも backup と operational の wrap があると
いう鍵の不変条件のおかげである。

包み直しは書き込みの前にすべて済ませ、書き込みは一つの transaction で行う。ここでは書き込みを文の単位で
写し、どの文が失敗しても database が元のままであることを見る。

渡された backup key を記録と照らし合わせるところは無い。違う鍵を断るのは開けない wrap であり、
wrap の一つもない database では、どの鍵でも復旧が通る。
-/

namespace SecretBunker

open Relational Transaction Store

namespace Statements

/-- UPDATE dek_wrap SET wrapped … AND recipient = 'operational'。当たった行の数を返す。 -/
def updateOperational (x : Nat × Nat × Bytes) : Sql Db Nat := statement fun db =>
  match Store.replaceOperational db x with
  | some db' => some (1, db')
  | none => some (0, db)

/-- 一行に当たらない UPDATE があれば、transaction ごと捨てる。 -/
def applyRecovery (rewrapped : List (Nat × Nat × Bytes)) (newOperationalPubkey : String) :
    Sql Db Unit :=
  transaction do
    rewrapped.forM fun x => do
      let n ← updateOperational x
      ensure (n == 1)
    execute fun db => some (db.upsertMeta "operational_pubkey" newOperationalPubkey)
    pure (.commit ())

/-- `recover`。包み直しは、書き込みの前にすべて済ませる。 -/
def recover (prim : Primitives) (amb : Ambient) (backup : AgeIdentity)
    (newOperationalPubkey : String) : Sql Db Unit := do
  let newOp ← OptionT.mk (pure (prim.parseAgeRecipient newOperationalPubkey))
  let initialized ← query fun db => some (Store.isInitialized db)
  ensure initialized
  let wraps ← query fun db => some (Store.allWrapsForRecipient db recipientBackup)
  let rewrapped ← OptionT.mk (pure (wraps.mapM fun w =>
    (unwrapDek prim w.2.2 backup).map fun dek =>
      (w.1, w.2.1, wrapDek prim (amb.seed w.1 w.2.1 recipientOperational) dek newOp)))
  applyRecovery rewrapped newOp.bech32

variable {prim : Primitives} {amb : Ambient} {backup : AgeIdentity} {pubkey : String} {db : Db}

/-- **失敗した復旧は何も変えない。** どの文が失敗しても同じである。 -/
theorem atomic_recover : Atomic (· = none) (recover prim amb backup pubkey).run := by
  refine .run_bind (.pure _) fun newOp => .run_bind (.query _) fun initialized => ?_
  refine .run_bind (readOnly_ensure _) fun _ => .run_bind (.query _) fun wraps => ?_
  exact .run_bind (.pure _) fun rewrapped => .transaction _

theorem computes_updateOperational (x : Nat × Nat × Bytes) (db : Db) :
    Computes (do let n ← updateOperational x; ensure (n == 1)) db
      ((Store.replaceOperational db x).map fun db' => ((), db')) := by
  refine ((Computes.statement _ db).bind fun n db' => Computes.ensure (n == 1) db').congr ?_
  cases Store.replaceOperational db x <;> rfl

theorem applyRecovery_calm (rewrapped : List (Nat × Nat × Bytes)) (pubkey : String) :
    (applyRecovery rewrapped pubkey).run (.calm db) =
      settled db ((Store.applyRecovery db rewrapped pubkey).map fun db' => ((), db')) := by
  refine (transaction_calm ((Computes.forM (f := fun x db => Store.replaceOperational db x)
    computes_updateOperational rewrapped db).bind fun _ db => (Computes.execute _ db).bind fun _ =>
      Computes.pure (Ending.commit ()))).trans ?_
  unfold Store.applyRecovery
  cases rewrapped.foldlM Store.replaceOperational db <;> rfl

/-- 故障が無ければ、文の列は `Node.recover` を計算する。 -/
theorem recover_calm : (recover prim amb backup pubkey).run (.calm db) =
    settled db ((Node.recover prim amb db backup pubkey).map fun db' => ((), db')) := by
  unfold recover Node.recover
  rw [run_bind, bind_apply]
  cases prim.parseAgeRecipient pubkey with
  | none => rfl
  | some newOp =>
    show (query _ >>= fun initialized => _).run (.calm db) = _
    rw [run_bind, bind_apply, query_calm]
    show (ensure _ >>= fun _ => _).run (.calm db) = _
    rw [ensure_calm]
    cases Store.isInitialized db with
    | false => rfl
    | true =>
      show (query _ >>= fun wraps => _).run (.calm db) = _
      rw [run_bind, bind_apply, query_calm]
      dsimp only
      rw [run_bind, bind_apply]
      show _ = settled db (Option.map _ (Option.bind (List.mapM _ _) _))
      cases (Store.allWrapsForRecipient db recipientBackup).mapM fun w =>
          (unwrapDek prim w.2.2 backup).map fun dek =>
            (w.1, w.2.1, wrapDek prim (amb.seed w.1 w.2.1 recipientOperational) dek newOp) with
      | none => rfl
      | some rewrapped => exact applyRecovery_calm rewrapped newOp.bech32

end Statements

variable {prim : Primitives} {amb : Ambient} {backup : AgeIdentity} {pubkey : String} {db db' : Db}

/-! ## 復旧が通る条件 -/

theorem exists_replaceOperational {x : Nat × Nat × Bytes} {b : Bytes}
    (hb : ⟨x.1, x.2.1, recipientOperational, b⟩ ∈ db.dekWrap) :
    ∃ mid, replaceOperational db x = some mid := by
  have hrow : (wrapRow db x.1 x.2.1 recipientOperational).isSome := by
    have hsome : (dekWrap db x.1 x.2.1 recipientOperational).isSome := by
      rw [dekWrap_eq_some.mpr hb]
      rfl
    rwa [dekWrap, Option.isSome_map] at hsome
  unfold replaceOperational Db.upsertWrap
  rw [if_pos hrow, dif_pos (db.wrapGroup _ hb)]
  exact ⟨_, rfl⟩

/-- 差し替えは、operational の wrap のある場所を変えない。 -/
theorem operational_replaceOperational {x : Nat × Nat × Bytes}
    (h : replaceOperational db x = some db') (g v : Nat) :
    (∃ b, ⟨g, v, recipientOperational, b⟩ ∈ db'.dekWrap) ↔
      ∃ b, ⟨g, v, recipientOperational, b⟩ ∈ db.dekWrap := by
  obtain ⟨⟨b₀, hb₀⟩, hw, rfl⟩ := replaceOperational_eq_some h
  show (∃ b, _ ∈ db.dekWrap.upsert _) ↔ _
  constructor
  · rintro ⟨b, hb⟩
    rcases Table.mem_upsert.mp hb with ⟨hm, -⟩ | he
    · exact ⟨b, hm⟩
    · obtain ⟨rfl, rfl, -⟩ := WrapRow.mk.inj he
      exact ⟨b₀, hb₀⟩
  · rintro ⟨b, hb⟩
    by_cases he : g = x.1 ∧ v = x.2.1
    · obtain ⟨rfl, rfl⟩ := he
      exact ⟨x.2.2, Table.mem_upsert.mpr (Or.inr rfl)⟩
    · exact ⟨b, Table.mem_upsert.mpr (Or.inl ⟨hb, fun hc => he ⟨hc.1, hc.2.1⟩⟩)⟩

/-- 復旧が通るのは、置き換える行がすべてあるときである。 -/
theorem applyRecovery_isSome_iff {rewrapped : List (Nat × Nat × Bytes)} :
    (applyRecovery db rewrapped pubkey).isSome ↔
      ∀ x ∈ rewrapped, ∃ b, ⟨x.1, x.2.1, recipientOperational, b⟩ ∈ db.dekWrap := by
  have hfold : (applyRecovery db rewrapped pubkey).isSome =
      (rewrapped.foldlM replaceOperational db).isSome := by
    unfold applyRecovery
    cases rewrapped.foldlM replaceOperational db <;> rfl
  rw [hfold]
  clear hfold
  induction rewrapped generalizing db with
  | nil => simp
  | cons x rest ih =>
    rw [List.foldlM_cons, List.forall_mem_cons]
    cases h : replaceOperational db x with
    | none =>
      refine iff_of_false Bool.false_ne_true fun hall => ?_
      obtain ⟨mid, hmid⟩ := exists_replaceOperational hall.1.choose_spec
      cases h.symm.trans hmid
    | some mid =>
      show (rest.foldlM replaceOperational mid).isSome ↔ _
      refine ih.trans (Iff.trans ?_ (and_iff_right (replaceOperational_eq_some h).1).symm)
      exact forall₂_congr fun y _ => operational_replaceOperational h _ _

/-- 復旧が通るのは、backup の wrap のどれもが開き、その version に operational の行もあるときである。 -/
theorem recover_isSome_iff {newOp : Recipient} (hparse : prim.parseAgeRecipient pubkey = some newOp)
    (hinit : isInitialized db = true) :
    (Node.recover prim amb db backup pubkey).isSome ↔
      ∀ g v b, ⟨g, v, recipientBackup, b⟩ ∈ db.dekWrap → (unwrapDek prim b backup).isSome ∧
        ∃ b', ⟨g, v, recipientOperational, b'⟩ ∈ db.dekWrap := by
  unfold Node.recover
  rw [hparse, hinit]
  show (Option.bind (List.mapM (m := Option) _ _) _).isSome ↔ _
  generalize hl : allWrapsForRecipient db recipientBackup = wraps
  have hmem : ∀ g v b, (g, v, b) ∈ wraps ↔ ⟨g, v, recipientBackup, b⟩ ∈ db.dekWrap := fun g v b => by
    rw [← hl, mem_allWrapsForRecipient]
  cases hmap : wraps.mapM fun w => (unwrapDek prim w.2.2 backup).map fun dek =>
      (w.1, w.2.1, wrapDek prim (amb.seed w.1 w.2.1 recipientOperational) dek newOp) with
  | none =>
    refine iff_of_false Bool.false_ne_true fun hall => ?_
    refine absurd (mapM_isSome_iff.mpr fun w hw => ?_) (by rw [hmap]; exact Bool.false_ne_true)
    rw [Option.isSome_map]
    exact (hall _ _ _ ((hmem w.1 w.2.1 w.2.2).mp hw)).1
  | some rewrapped =>
    have hopen : ∀ w ∈ wraps, (unwrapDek prim w.2.2 backup).isSome := by
      intro w hw
      have := mapM_isSome_iff.mp (by rw [hmap]; rfl) w hw
      rwa [Option.isSome_map] at this
    show (applyRecovery db rewrapped newOp.bech32).isSome ↔ _
    rw [applyRecovery_isSome_iff]
    constructor
    · intro hall g v b hb
      have hw := (hmem g v b).mpr hb
      obtain ⟨dek, hdek⟩ := Option.isSome_iff_exists.mp (hopen _ hw)
      have hx : (g, v, wrapDek prim (amb.seed g v recipientOperational) dek newOp) ∈ rewrapped :=
        (mem_of_mapM hmap).mpr ⟨_, hw, by rw [hdek]; rfl⟩
      exact ⟨hopen _ hw, hall _ hx⟩
    · intro hall x hx
      obtain ⟨⟨g, v, b⟩, hw, hx⟩ := (mem_of_mapM hmap).mp hx
      obtain ⟨dek, -, rfl⟩ := Option.map_eq_some_iff.mp hx
      exact (hall g v b ((hmem g v b).mp hw)).2

/-- 宛先の違う鍵で wrap は開かない。 -/
theorem unwrapDek_other (laws : prim.Lawful) {seed : Bytes} {dek : Dek} {r : Recipient}
    {key : AgeIdentity} (h : prim.toPublic key ≠ r) :
    unwrapDek prim (wrapDek prim seed dek r) key = none := by
  unfold unwrapDek wrapDek
  cases hd : prim.ageDecrypt key (prim.ageEncrypt r seed dek.bytes) with
  | none => rfl
  | some b => exact absurd (laws.age_decrypt_other _ _ _ _ _ hd) h

/-! ## 記録された鍵と印 -/

theorem metaGet_congr (h : db'.metadata = db.metadata) (key : String) :
    metaGet db' key = metaGet db key := by
  rw [metaGet, metaGet, h]

/-- 補う印がもうすべて付いているなら、開き直しても何も変わらない。 -/
theorem openDb_eq_self (hrole : isInitialized db = true → ∃ v, metaGet db "role" = some v)
    (hschema : ∃ v, metaGet db "schema_version" = some v) : openDb db = db := by
  have hkeep : ∀ {key value v : String}, metaGet db key = some v →
      db.insertMetaOrIgnore key value = db := by
    intro key value v hv
    unfold Db.insertMetaOrIgnore
    rw [Table.insertOrIgnore_eq_self (r := ⟨key, value⟩) (metaGet_eq_some.mp hv) rfl]
    rfl
  obtain ⟨v, hv⟩ := hschema
  unfold openDb
  split
  · next hinit =>
    obtain ⟨role, hr⟩ := hrole hinit
    rw [hkeep hr, hkeep hv]
  · exact hkeep hv

/-- authoritative の印と schema の版が、もう付いている。 -/
structure Signed (db : Db) : Prop where
  role : metaGet db "role" = some "authoritative"
  schema : ∃ v, metaGet db "schema_version" = some v
  initialized : isInitialized db = true

namespace Signed

theorem of_metadata (h : Signed db) (hm : db'.metadata = db.metadata) : Signed db' where
  role := (metaGet_congr hm _).trans h.role
  schema := by
    obtain ⟨v, hv⟩ := h.schema
    exact ⟨v, (metaGet_congr hm _).trans hv⟩
  initialized := by
    rw [isInitialized, metaGet_congr hm]
    exact h.initialized

/-- 印の付いた database は、開き直しても変わらない。 -/
theorem openDb_eq (h : Signed db) : openDb db = db :=
  openDb_eq_self (fun _ => ⟨_, h.role⟩) h.schema

theorem recover (h : Signed db) (hr : Node.recover prim amb db backup pubkey = some db') :
    Signed db' := by
  obtain ⟨newOp, rewrapped, -, ⟨t, hw, rfl, -⟩, -⟩ := recover_spec hr
  refine ⟨?_, ?_, ?_⟩
  · rw [metaGet_upsertMeta, if_neg (by decide)]
    exact h.role
  · rw [metaGet_upsertMeta, if_neg (by decide)]
    exact h.schema
  · rw [isInitialized, metaGet_upsertMeta, if_pos rfl]
    rfl

theorem step (h : Signed db) (op : Node.Op) (amb : Ambient) : Signed (Node.step prim db op amb).2 := by
  cases op with
  | handle key remote req =>
    unfold Node.step
    dsimp only
    split
    · exact h
    · exact h.of_metadata (leaves_handle _ _).metadata
  | dbGrant group identity perms key =>
    unfold Node.step
    dsimp only
    rw [h.openDb_eq]
    cases hg : Node.dbGrant prim amb db group identity perms key with
    | none => exact h
    | some db' => exact h.of_metadata (localEffect_dbGrant hg).keysOnly.metadata
  | recover backup pubkey =>
    unfold Node.step
    dsimp only
    rw [h.openDb_eq]
    cases hr : Node.recover prim amb db backup pubkey with
    | none => exact h
    | some db' => exact h.recover hr
  | reopen =>
    unfold Node.step
    dsimp only
    rw [h.openDb_eq]
    exact h

theorem init {op backup endpoint name : String} {db₀ : Db}
    (h : Node.init op backup endpoint name = some db₀) :
    Signed db₀ ∧ metaGet db₀ "backup_pubkey" = some backup := by
  unfold Node.init Store.init at h
  split at h
  · cases h
  · obtain ⟨i, t, ht, -, -, -, rfl, -⟩ := addIdentity_spec h
    have hmeta : ∀ key, metaGet ((metaSetMany (openDb Db.empty) _).withIdentities t ht) key =
        metaGet (metaSetMany (openDb Db.empty) [("operational_pubkey", op), ("backup_pubkey", backup),
          ("schema_version", "2"), ("role", "authoritative")]) key := fun _ => rfl
    refine ⟨⟨?_, ⟨"2", ?_⟩, ?_⟩, ?_⟩
    · rw [hmeta]
      simp [metaSetMany, metaGet_upsertMeta]
    · rw [hmeta]
      simp [metaSetMany, metaGet_upsertMeta]
    · rw [isInitialized, hmeta]
      simp [metaSetMany, metaGet_upsertMeta]
    · rw [hmeta]
      simp [metaSetMany, metaGet_upsertMeta]

/-- 初期化の後に何をしても、印は付いたままである。 -/
theorem exec (h : Signed db) (ops : List (Node.Op × Ambient)) : Signed (Node.exec prim db ops) :=
  Node.exec_induction prim h (fun _ op amb h => h.step op amb) ops

end Signed

/-- 記録された backup の公開鍵は、どの操作でも変わらない。 -/
theorem recipientOf_backup_exec (laws : prim.Lawful) (hk : KeyWrap prim db)
    (ops : List (Node.Op × Ambient)) :
    recipientOf prim (Node.exec prim db ops) recipientBackup = recipientOf prim db recipientBackup := by
  refine exec_relation (R := fun a b => recipientOf prim b recipientBackup =
    recipientOf prim a recipientBackup) laws (fun _ => rfl) (fun _ _ _ hab hbc => hbc.trans hab)
    (fun _ _ _ ht => ht.recipients _) (fun a b amb key pk _ hr => ?_) hk ops
  obtain ⟨newOp, rewrapped, -, ⟨t, hw, rfl, -⟩, -⟩ := recover_spec hr
  rw [recipientOf_backup, recipientOf_backup, Node.recordedRecipient, metaGet_upsertMeta,
    if_neg (by decide)]
  rfl

/-! ## 復旧の後 -/

/-- 変わったのは operational の wrap の中身と、記録された operational の公開鍵だけである。 -/
def OnlyOperational (db db' : Db) : Prop :=
  ∃ t hw pubkey, db' = (db.withWraps t hw).upsertMeta "operational_pubkey" pubkey ∧
    (∀ w, w.recipient ≠ recipientOperational → (w ∈ t ↔ w ∈ db.dekWrap)) ∧
    ∀ g v, (∃ b, ⟨g, v, recipientOperational, b⟩ ∈ t) ↔
      ∃ b, ⟨g, v, recipientOperational, b⟩ ∈ db.dekWrap

/-- recover は operational の wrap と鍵のほかを変えない。 -/
theorem onlyOperational_recover (hinit : isInitialized db = true)
    (h : Node.recover prim amb db backup pubkey = some db') : OnlyOperational db db' := by
  obtain ⟨newOp, rewrapped, hparse, ⟨t, hw, rfl, ht⟩, hkeys, -⟩ := recover_spec h
  have hrows := (recover_isSome_iff hparse hinit).mp (by rw [h]; rfl)
  refine ⟨t, hw, newOp.bech32, rfl, fun w hr => ?_, fun g v => ?_⟩
  · rw [ht]
    constructor
    · rintro (⟨hm, -⟩ | ⟨x, -, rfl⟩)
      · exact hm
      · exact absurd rfl hr
    · exact fun hm => Or.inl ⟨hm, fun hc => hr hc.1⟩
  · constructor
    · rintro ⟨b, hb⟩
      rcases (ht _).mp hb with ⟨hm, -⟩ | ⟨x, hx, he⟩
      · exact ⟨b, hm⟩
      · obtain ⟨rfl, rfl, -⟩ := WrapRow.mk.inj he
        obtain ⟨b₀, hb₀⟩ := (hkeys (x.1, x.2.1)).mp (List.mem_map.mpr ⟨x, hx, rfl⟩)
        exact (hrows _ _ b₀ hb₀).2
    · rintro ⟨b, hb⟩
      by_cases hc : (g, v) ∈ rewrapped.map fun x => (x.1, x.2.1)
      · obtain ⟨x, hx, he⟩ := List.mem_map.mp hc
        obtain ⟨rfl, rfl⟩ := Prod.mk.inj he
        exact ⟨x.2.2, (ht _).mpr (Or.inr ⟨x, hx, rfl⟩)⟩
      · exact ⟨b, (ht _).mpr (Or.inl ⟨hb, fun hn => hc hn.2⟩)⟩

/-- 復旧の後に記録されているのは新しい鍵であり、backup の記録は変わらない。 -/
theorem metaGet_recover {newOp : Recipient} (hparse : prim.parseAgeRecipient pubkey = some newOp)
    (h : Node.recover prim amb db backup pubkey = some db') (key : String) :
    metaGet db' key = if key = "operational_pubkey" then some newOp.bech32 else metaGet db key := by
  obtain ⟨newOp', rewrapped, hparse', ⟨t, hw, rfl, -⟩, -⟩ := recover_spec h
  obtain rfl := Option.some.inj (hparse.symm.trans hparse')
  rw [metaGet_upsertMeta]
  rfl

/-- 復旧した database は、ちょうど新しい鍵で開く。 -/
theorem new_recover (laws : prim.Lawful) (hsigned : Signed db) {newOp r : Recipient}
    (hbackup : recipientOf prim db recipientBackup = some r)
    (hparse : prim.parseAgeRecipient pubkey = some newOp)
    (h : Node.recover prim amb db backup pubkey = some db') (key : AgeIdentity) :
    (Bunker.new prim db' key).isSome ↔ prim.toPublic key = newOp := by
  have hmeta := metaGet_recover hparse h
  have hop : metaGet db' "operational_pubkey" = some newOp.bech32 := hmeta _
  constructor
  · intro hnew
    obtain ⟨inner, hnew⟩ := Option.isSome_iff_exists.mp hnew
    obtain ⟨-, hrec, -⟩ := new_eq_some.mp hnew
    have hparsed := laws.parse_public key
    rw [← Option.some.inj (hop.symm.trans hrec), laws.parse_parsed _ _ hparse] at hparsed
    exact (Option.some.inj hparsed).symm
  · rintro rfl
    have hrole : metaGet db' "role" ≠ some "replica" := by
      rw [(hsigned.recover h).role]
      decide
    have hback : Node.recordedRecipient prim db' "backup_pubkey" = some r := by
      rw [Node.recordedRecipient, hmeta]
      exact (recipientOf_backup ..).symm.trans hbackup
    have hnew : Bunker.new prim db' key = some ⟨key, prim.toPublic key, r⟩ :=
      new_eq_some.mpr ⟨hrole, hop, hback, rfl, rfl⟩
    rw [hnew]
    rfl

/-- 記録された鍵の持ち主は、登録された version の DEK を operational の wrap から取り出せる。 -/
theorem KeyWrap.unwrapOperational_eq (laws : prim.Lawful) (hk : KeyWrap prim db) {gid v : Nat}
    (hv : ⟨gid, v⟩ ∈ db.groupDek) {dek : Dek}
    (hdek : ∀ r b, ⟨gid, v, r, b⟩ ∈ db.dekWrap → WrappedAs prim db dek r b) {key : AgeIdentity}
    (hkey : recipientOf prim db recipientOperational = some (prim.toPublic key)) :
    Bunker.unwrapOperational prim key db gid v = some dek := by
  obtain ⟨b, hb, hopen⟩ := hk.operational_opens laws hv hdek hkey
  unfold Bunker.unwrapOperational
  rw [hb]
  exact hopen

theorem unwrapOperational_eq_none (hk : KeyWrap prim db) {gid v : Nat}
    (hv : ⟨gid, v⟩ ∉ db.groupDek) (key : AgeIdentity) :
    Bunker.unwrapOperational prim key db gid v = none := by
  cases hu : Bunker.unwrapOperational prim key db gid v with
  | none => rfl
  | some dek =>
    obtain ⟨b, hb, -⟩ := Option.bind_eq_some_iff.mp hu
    exact absurd (hk.registered _ (dekWrap_eq_some.mp hb)) hv

/-- どの version も、前の鍵で開いたものと同じ DEK に開く。 -/
theorem unwrapOperational_recover (laws : prim.Lawful) (hk : KeyWrap prim db)
    (h : Node.recover prim amb db backup pubkey = some db') {old new : AgeIdentity}
    (hold : recipientOf prim db recipientOperational = some (prim.toPublic old))
    (hnew : recipientOf prim db' recipientOperational = some (prim.toPublic new)) (gid v : Nat) :
    Bunker.unwrapOperational prim new db' gid v = Bunker.unwrapOperational prim old db gid v := by
  have hk' := keyWrap_recover laws hk h
  have hdeks : db'.groupDek = db.groupDek := by
    obtain ⟨_, _, -, ⟨t, hw, rfl, -⟩, -⟩ := recover_spec h
    rfl
  by_cases hv : ⟨gid, v⟩ ∈ db.groupDek
  · obtain ⟨dek, hdek⟩ := hk.opens hv
    rw [hk.unwrapOperational_eq laws hv hdek hold,
      hk'.unwrapOperational_eq laws (hdeks ▸ hv) (recover_opens laws hk h hv hdek) hnew]
  · rw [unwrapOperational_eq_none hk hv, unwrapOperational_eq_none hk' (hdeks ▸ hv)]

theorem openSecret_eq (gid : Nat) (group name : String) (sv : SecretVersion) (key : AgeIdentity) :
    openSecret prim db gid group name sv recipientOperational key =
      (Bunker.unwrapOperational prim key db gid sv.dekVersion).bind fun dek =>
        decryptSecret prim dek (secretAad group name sv.version sv.dekVersion) sv.nonce
          sv.ciphertext :=
  (Option.bind_assoc _ _ _).symm

/-- **復旧の前後で、どの読み取りの答えも同じである。** -/
theorem get_recover (laws : prim.Lawful) (hk : KeyWrap prim db)
    (h : Node.recover prim amb db backup pubkey = some db') {inner inner' : Inner}
    {key key' : AgeIdentity} (hold : Bunker.new prim db key = some inner)
    (hnew : Bunker.new prim db' key' = some inner') (amb₁ amb₂ : Ambient)
    (remote group name : String) :
    (Bunker.handle prim inner' amb₂ db' remote (.get group name)).response =
      (Bunker.handle prim inner amb₁ db remote (.get group name)).response := by
  obtain ⟨hm, rfl⟩ := matches_of_new laws hold
  obtain ⟨hm', rfl⟩ := matches_of_new laws hnew
  have hopen : ∀ gid v, Bunker.unwrapOperational prim inner'.opIdentity db' gid v =
      Bunker.unwrapOperational prim inner.opIdentity db gid v :=
    unwrapOperational_recover laws hk h (hm.identity ▸ hm.operational) (hm'.identity ▸ hm'.operational)
  -- recover は wrap しか書き換えないので、ほかの表の読みは変わらない
  obtain ⟨hident, hauth, hcur⟩ : identityByEndpoint db' remote = identityByEndpoint db remote ∧
      (∀ ident admin, authorizeGroup db' ident group permRead admin =
        authorizeGroup db ident group permRead admin) ∧
      ∀ gid, secretCurrent db' gid name = secretCurrent db gid name := by
    obtain ⟨_, _, -, ⟨t, hw, rfl, -⟩, -⟩ := recover_spec h
    exact ⟨rfl, fun _ _ => rfl, fun _ => rfl⟩
  have hread : ∀ (ident : Identity), readSecret prim db' ident group name recipientOperational
      inner'.opIdentity ident.serviceAdmin = readSecret prim db ident group name
        recipientOperational inner.opIdentity ident.serviceAdmin := by
    intro ident
    unfold readSecret
    rw [hauth]
    cases authorizeGroup db ident group permRead ident.serviceAdmin with
    | none => rfl
    | some gid =>
      dsimp only
      rw [hcur]
      cases secretCurrent db gid name with
      | none => rfl
      | some sv =>
        dsimp only
        rw [openSecret_eq, openSecret_eq, hopen]
  show (Bunker.dispatch _ _ _ _ _ _).1 = (Bunker.dispatch _ _ _ _ _ _).1
  unfold Bunker.dispatch
  rw [hident]
  cases identityByEndpoint db remote with
  | none => rfl
  | some ident => exact hread ident

/-! ## 届く store -/

section Reachable

variable {op endpoint name : String} {db₀ : Db}

theorem backup_exec (laws : prim.Lawful) (hlen : endpoint.length = 64)
    (hinit : Node.init op (prim.toPublic backup).bech32 endpoint name = some db₀)
    (ops : List (Node.Op × Ambient)) :
    recipientOf prim (Node.exec prim db₀ ops) recipientBackup = some (prim.toPublic backup) := by
  rw [recipientOf_backup_exec laws (keyWrap_init hlen hinit), recipientOf_backup,
    Node.recordedRecipient, (Signed.init hinit).2]
  exact laws.parse_public _

/-- 本当の backup key なら、どの version も開き、operational の行もある。 -/
theorem recover_succeeds (laws : prim.Lawful) (hk : KeyWrap prim db) (hsigned : Signed db)
    (hbackup : recipientOf prim db recipientBackup = some (prim.toPublic backup)) {newOp : Recipient}
    (hparse : prim.parseAgeRecipient pubkey = some newOp) :
    ∃ db', Node.recover prim amb db backup pubkey = some db' := by
  refine Option.isSome_iff_exists.mp ((recover_isSome_iff hparse hsigned.initialized).mpr ?_)
  intro g v b hb
  have hv := hk.registered _ hb
  obtain ⟨dek, hdek⟩ := hk.opens hv
  obtain ⟨seed, recipient, hrec, rfl⟩ := hdek _ b hb
  obtain rfl := Option.some.inj (hrec.symm.trans hbackup)
  refine ⟨?_, (hk.recipients hv recipientOperational).mpr (Or.inl rfl)⟩
  rw [unwrapDek_wrapDek laws]
  rfl

/-- 開かない backup の wrap、または operational の行の無い version があれば、復旧は通らない。 -/
theorem recover_fails {g v : Nat} {b : Bytes} (hb : ⟨g, v, recipientBackup, b⟩ ∈ db.dekWrap)
    (h : unwrapDek prim b backup = none ∨ ∀ b', ⟨g, v, recipientOperational, b'⟩ ∉ db.dekWrap) :
    Node.recover prim amb db backup pubkey = none := by
  cases hr : Node.recover prim amb db backup pubkey with
  | none => rfl
  | some db' =>
    obtain ⟨newOp, _, hparse, -⟩ := recover_spec hr
    have hinit : isInitialized db = true := by
      unfold Node.recover at hr
      obtain ⟨_, -, hr⟩ := Option.bind_eq_some_iff.mp hr
      split at hr
      · cases hr
      · next hne => simpa using hne
    obtain ⟨hopen, b', hb'⟩ := (recover_isSome_iff hparse hinit).mp (by rw [hr]; rfl) g v b hb
    rcases h with hnone | hmissing
    · rw [hnone] at hopen
      cases hopen
    · exact absurd hb' (hmissing b')

/-- DEK が一つでもあれば、ほかの鍵では復旧できない。 -/
theorem recover_other (laws : prim.Lawful) (hk : KeyWrap prim db)
    (hbackup : recipientOf prim db recipientBackup = some (prim.toPublic backup)) {key : AgeIdentity}
    (hkey : prim.toPublic key ≠ prim.toPublic backup) {d : DekRow} (hd : d ∈ db.groupDek) :
    Node.recover prim amb db key pubkey = none := by
  obtain ⟨dek, hdek⟩ := hk.opens hd
  obtain ⟨b, hb⟩ := (hk.recipients hd recipientBackup).mpr (Or.inr (Or.inl rfl))
  refine recover_fails hb (Or.inl ?_)
  obtain ⟨seed, recipient, hrec, rfl⟩ := hdek _ b hb
  obtain rfl := Option.some.inj (hrec.symm.trans hbackup)
  exact unwrapDek_other laws hkey

/--
**災害からの復旧は、どの secret も失わない。**

初期化からどの操作を経た store でも、本当の backup key による復旧は通り、変わるのは operational の wrap と
記録された公開鍵だけで、database はちょうど新しい鍵で開き、どの読み取りの答えも前と同じである。DEK が一つでも
あれば、ほかの鍵では通らない。開かない wrap や operational の行の無い version があるときも通らず、どの文が
失敗しても、通らなかった復旧は何も変えない。
-/
theorem recovery_preserves_secrets (laws : prim.Lawful) {newKey : AgeIdentity}
    (hlen : endpoint.length = 64)
    (hinit : Node.init op (prim.toPublic backup).bech32 endpoint name = some db₀)
    (ops : List (Node.Op × Ambient))
    (hparse : prim.parseAgeRecipient pubkey = some (prim.toPublic newKey)) (amb : Ambient) :
    let db := Node.exec prim db₀ ops
    let run := fun (key : AgeIdentity) (c : Conn Db) => (Statements.recover prim amb key pubkey).run c
    (∃ db', run backup (.calm (openDb db)) = (some (), .calm db') ∧ OnlyOperational db db' ∧
      (∀ key, (Bunker.new prim db' key).isSome ↔ prim.toPublic key = prim.toPublic newKey) ∧
      ∀ key key' inner inner', Bunker.new prim db key = some inner →
        Bunker.new prim db' key' = some inner' → ∀ amb₁ amb₂ remote group secret,
          (Bunker.handle prim inner' amb₂ db' remote (.get group secret)).response =
            (Bunker.handle prim inner amb₁ db remote (.get group secret)).response) ∧
    (∀ key, prim.toPublic key ≠ prim.toPublic backup → (∃ d, d ∈ db.groupDek) →
      run key (.calm (openDb db)) = (none, .calm db)) ∧
    (∀ (d : Db) (key : AgeIdentity), (∃ g v b, ⟨g, v, recipientBackup, b⟩ ∈ d.dekWrap ∧
      (unwrapDek prim b key = none ∨ ∀ b', ⟨g, v, recipientOperational, b'⟩ ∉ d.dekWrap)) →
        run key (.calm d) = (none, .calm d)) ∧
    ∀ key c, (run key c).1 = none → (run key c).2.data = c.data := by
  intro db run
  have hk : KeyWrap prim db := keyWrap_exec laws (keyWrap_init hlen hinit) ops
  have hsigned : Signed db := (Signed.init hinit).1.exec ops
  have hbackup : recipientOf prim db recipientBackup = some (prim.toPublic backup) :=
    backup_exec laws hlen hinit ops
  have hrun : ∀ key d, run key (.calm d) = settled d
      ((Node.recover prim amb d key pubkey).map fun db' => ((), db')) := fun key d =>
    Statements.recover_calm
  have hsuccess : ∃ db', Node.recover prim amb db backup pubkey = some db' :=
    recover_succeeds laws hk hsigned hbackup hparse
  refine ⟨?_, fun key hkey hd => ?_, fun d key hd => ?_, fun key => Statements.atomic_recover⟩
  · obtain ⟨db', h⟩ := hsuccess
    refine ⟨db', ?_, onlyOperational_recover hsigned.initialized h,
      new_recover laws hsigned hbackup hparse h, fun key key' inner inner' hold hnew =>
        get_recover laws hk h hold hnew⟩
    rw [hrun, hsigned.openDb_eq, h]
    rfl
  · obtain ⟨d, hd⟩ := hd
    rw [hrun, hsigned.openDb_eq, recover_other laws hk hbackup hkey hd]
    rfl
  · obtain ⟨g, v, b, hb, hbad⟩ := hd
    rw [hrun, recover_fails hb hbad]
    rfl

theorem recovery_preserves_secrets_sample :
    let db := Node.exec plain sampleDb sampleGranted
    (∃ db', (Statements.recover plain (sampleAmbient 9) ⟨"b"⟩ "n").run (.calm (openDb db)) =
        (some (), .calm db') ∧ OnlyOperational db db' ∧
      ∀ key, (Bunker.new plain db' key).isSome ↔ plain.toPublic key = plain.toPublic ⟨"n"⟩) ∧
    (Statements.recover plain (sampleAmbient 9) ⟨"x"⟩ "n").run (.calm (openDb db)) =
      (none, .calm db) := by
  intro db
  obtain ⟨⟨db', hrun, honly, hopens, -⟩, hother, -⟩ := recovery_preserves_secrets plain_lawful
    (show (samplePeer 'a').length = 64 by decide)
    (show Node.init "o" (plain.toPublic ⟨"b"⟩).bech32 (samplePeer 'a') "admin" = some sampleDb
      from init_sampleDb) sampleGranted
    (show plain.parseAgeRecipient "n" = some (plain.toPublic ⟨"n"⟩) from rfl) (sampleAmbient 9)
  exact ⟨⟨db', hrun, honly, hopens⟩, hother ⟨"x"⟩ (by decide) ⟨⟨1, 1⟩, by decide⟩⟩

/-- 初期化しただけの store には開く wrap が無く、backup でない鍵による復旧も通る。 -/
theorem other_key_recovers_empty :
    let after := (Statements.recover plain (sampleAmbient 1) ⟨"x"⟩ "n").run (.calm (openDb sampleDb))
    Node.init "o" (plain.toPublic ⟨"b"⟩).bech32 (samplePeer 'a') "admin" = some sampleDb ∧
      plain.toPublic ⟨"x"⟩ ≠ plain.toPublic ⟨"b"⟩ ∧ after.1 = some () ∧
      metaGet sampleDb "operational_pubkey" = some "o" ∧
      metaGet after.2.data "operational_pubkey" = some "n" :=
  ⟨init_sampleDb, by decide, by decide +kernel, by decide +kernel, by decide +kernel⟩

end Reachable

end SecretBunker
