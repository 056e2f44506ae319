import SecretBunker.Keys.Invariant

/-!
# offline の grant

`db grant` は、server の grant の手順を別の場所にもう一度書いたものである。二つの手順は乱数と、鍵の
取り出し方が違う。server は開いた bunker の鍵を使い、`db grant` は database に記録された公開鍵と、
渡された operational key を使う。

違いの出るところは新しい DEK と wrap の中身だけなので、それを忘れた形（`SameShape`）で二つの結果を
比べる。
-/

namespace SecretBunker

open Relational Store

variable {prim : Primitives} {a b a' : Db}

/-- wrap の置き場所。 -/
def WrapRow.place (w : WrapRow) : Nat × Nat × String := (w.groupId, w.dekVersion, w.recipient)

theorem WrapRow.conflict_iff {w x : WrapRow} : Row.Conflict w x ↔ w.place = x.place := by
  show w.groupId = x.groupId ∧ _ ∧ _ ↔ (_, _, _) = (_, _, _)
  rw [Prod.mk.injEq, Prod.mk.injEq]

/-- wrap の中身と meta、audit を忘れれば同じ database。 -/
structure SameShape (a b : Db) : Prop where
  identity : a.identity = b.identity
  secretGroup : a.secretGroup = b.secretGroup
  groupAcl : a.groupAcl = b.groupAcl
  groupDek : a.groupDek = b.groupDek
  places : a.dekWrap.rows.map (·.place) = b.dekWrap.rows.map (·.place)
  secret : a.secret = b.secret
  secretVersion : a.secretVersion = b.secretVersion

namespace SameShape

/-! ## 文 -/

theorem withMeta (db : Db) (t : Table MetaRow) : SameShape db (db.withMeta t) :=
  ⟨rfl, rfl, rfl, rfl, rfl, rfl, rfl⟩

theorem audit (h : SameShape a b) (l m : List AuditRow) :
    SameShape (a.withAudit l) (b.withAudit m) :=
  ⟨h.identity, h.secretGroup, h.groupAcl, h.groupDek, h.places, h.secret, h.secretVersion⟩

variable {i g v : Nat} {p : UInt8} {r : String}

theorem upsertAcl (h : SameShape a b) (ha : a.upsertAcl i g p = some a') :
    ∃ b', b.upsertAcl i g p = some b' ∧ SameShape a' b' := by
  unfold Db.upsertAcl at ha
  split at ha
  · next hrefs =>
    cases ha
    rw [h.identity, h.secretGroup] at hrefs
    refine ⟨_, dif_pos hrefs, h.identity, h.secretGroup, ?_, h.groupDek, h.places, h.secret,
      h.secretVersion⟩
    exact congrArg (Table.upsert · _) h.groupAcl
  · cases ha

theorem setPerms (h : SameShape a b) (ha : Store.setPerms a i g p = some a') :
    ∃ b', Store.setPerms b i g p = some b' ∧ SameShape a' b' := by
  unfold Store.setPerms at ha ⊢
  split at ha
  · next hp =>
    cases ha
    rw [if_pos hp]
    refine ⟨_, rfl, h.identity, h.secretGroup, ?_, h.groupDek, h.places, h.secret,
      h.secretVersion⟩
    show a.groupAcl.delete _ = b.groupAcl.delete _
    rw [h.groupAcl]
  · next hp =>
    rw [if_neg hp]
    exact h.upsertAcl ha

theorem insertDek (h : SameShape a b) (ha : a.insertDek g v = some a') :
    ∃ b', b.insertDek g v = some b' ∧ SameShape a' b' := by
  unfold Db.insertDek at ha ⊢
  rw [h.groupDek] at ha
  split at ha
  · cases ha
  · next hfresh =>
    rw [if_neg hfresh]
    unfold Db.insertDekOrIgnore at ha
    split at ha
    · next hgroup =>
      cases ha
      rw [h.secretGroup] at hgroup
      exact ⟨_, dif_pos hgroup, h.identity, h.secretGroup, h.groupAcl,
        congrArg (Table.insertOrIgnore · _) h.groupDek, h.places, h.secret, h.secretVersion⟩
    · cases ha

/-- 残る行は置き場所だけで決まる。 -/
theorem places_filter {l m : List WrapRow} {p : Nat × Nat × String → Bool}
    (h : l.map (·.place) = m.map (·.place)) :
    (l.filter fun w => p w.place).map (·.place) = (m.filter fun w => p w.place).map (·.place) := by
  have hcomm : ∀ l : List WrapRow,
      (l.filter fun w => p w.place).map (·.place) = (l.map (·.place)).filter p :=
    fun l => List.filter_map.symm
  rw [hcomm, hcomm, h]

theorem deleteWraps (h : SameShape a b) (g : Nat) (r : String) :
    SameShape (Store.deleteWraps a g r) (Store.deleteWraps b g r) :=
  ⟨h.identity, h.secretGroup, h.groupAcl, h.groupDek,
    places_filter (p := fun k => !(k.1 == g && k.2.2 == r)) h.places, h.secret, h.secretVersion⟩

theorem rows_upsertWrap (t : Table WrapRow) (w : WrapRow) :
    (t.upsert w).rows = (t.rows.filter fun x => x.place != w.place) ++ [w] := by
  have hrows : t.rows.filter (fun x => ¬ Row.Conflict x w) =
      t.rows.filter fun x => x.place != w.place := by
    refine List.filter_congr fun x _ => ?_
    rw [decide_not, bne, beq_eq_decide]
    exact congrArg (!·) (decide_eq_decide.mpr WrapRow.conflict_iff)
  exact congrArg (· ++ [w]) hrows

theorem upsertWrap (h : SameShape a b) (x y : Bytes) (ha : a.upsertWrap g v r x = some a') :
    ∃ b', b.upsertWrap g v r y = some b' ∧ SameShape a' b' := by
  unfold Db.upsertWrap at ha
  split at ha
  · next hgroup =>
    cases ha
    rw [h.secretGroup] at hgroup
    refine ⟨_, dif_pos hgroup, h.identity, h.secretGroup, h.groupAcl, h.groupDek, ?_, h.secret,
      h.secretVersion⟩
    show (a.dekWrap.upsert _).rows.map _ = (b.dekWrap.upsert _).rows.map _
    rw [rows_upsertWrap, rows_upsertWrap, List.map_append, List.map_append]
    exact congrArg (· ++ [(g, v, r)]) (places_filter (p := (· != (g, v, r))) h.places)
  · cases ha

theorem exists_place_iff {db : Db} :
    (∃ w ∈ db.dekWrap, w.groupId = g ∧ w.dekVersion = v ∧ w.recipient = r) ↔
      (g, v, r) ∈ db.dekWrap.rows.map (·.place) := by
  rw [List.mem_map]
  constructor
  · rintro ⟨w, hw, rfl, rfl, rfl⟩
    exact ⟨w, hw, rfl⟩
  · rintro ⟨w, hw, heq⟩
    cases heq
    exact ⟨w, hw, rfl, rfl, rfl⟩

theorem insertWrap (h : SameShape a b) (x y : Bytes) (ha : a.insertWrap g v r x = some a') :
    ∃ b', b.insertWrap g v r y = some b' ∧ SameShape a' b' := by
  unfold Db.insertWrap at ha ⊢
  split at ha
  · cases ha
  · next hfresh =>
    rw [if_neg]
    · exact h.upsertWrap x y ha
    · rw [exists_place_iff] at hfresh ⊢
      rw [← h.places]
      exact hfresh

/-! ## 文の列 -/

/-- 中身だけが違う行を順に書いても、形は同じままである。 -/
theorem foldlM {K : Type} {f : Db → K × Bytes → Option Db}
    (hf : ∀ {a b a' : Db} (k : K) (x y : Bytes), SameShape a b → f a (k, x) = some a' →
      ∃ b', f b (k, y) = some b' ∧ SameShape a' b')
    {xs ys : List (K × Bytes)} (h : SameShape a b) (hkeys : xs.map Prod.fst = ys.map Prod.fst)
    (ha : xs.foldlM f a = some a') : ∃ b', ys.foldlM f b = some b' ∧ SameShape a' b' := by
  induction xs generalizing a b ys with
  | nil =>
    cases ha
    obtain rfl := List.map_eq_nil_iff.mp hkeys.symm
    exact ⟨b, rfl, h⟩
  | cons x xs ih =>
    cases ys with
    | nil => cases hkeys
    | cons y ys =>
      obtain ⟨k, x⟩ := x
      obtain ⟨k', y⟩ := y
      obtain ⟨rfl, hrest⟩ := List.cons.inj hkeys
      rw [List.foldlM_cons] at ha ⊢
      obtain ⟨mid, hmid, ha⟩ := Option.bind_eq_some_iff.mp ha
      obtain ⟨mid', hmid', hshape⟩ := hf k x y h hmid
      rw [hmid']
      exact ih hshape hrest ha

theorem grantWithWraps {xs ys : List (Nat × Bytes)} (h : SameShape a b)
    (hkeys : xs.map Prod.fst = ys.map Prod.fst) (ha : Store.grantWithWraps a i g p xs r = some a') :
    ∃ b', Store.grantWithWraps b i g p ys r = some b' ∧ SameShape a' b' := by
  unfold Store.grantWithWraps at ha ⊢
  split at ha
  · cases ha
  · next hp =>
    obtain ⟨mid, hmid, ha⟩ := Option.bind_eq_some_iff.mp ha
    obtain ⟨mid', hmid', hshape⟩ := h.upsertAcl hmid
    rw [if_neg hp, hmid']
    exact hshape.foldlM (fun _ x y h => h.upsertWrap x y) hkeys ha

theorem insertDekVersion {n : Nat} {xs ys : List (String × Bytes)} (h : SameShape a b)
    (hkeys : xs.map Prod.fst = ys.map Prod.fst)
    (ha : Store.insertDekVersion a g xs = some (n, a')) :
    ∃ b', Store.insertDekVersion b g ys = some (n, b') ∧ SameShape a' b' := by
  have hcurrent : currentDekVersion b g = currentDekVersion a g := by
    unfold currentDekVersion registeredVersions
    rw [h.groupDek]
  unfold Store.insertDekVersion at ha ⊢
  dsimp only at ha ⊢
  rw [hcurrent]
  obtain ⟨mid, hmid, ha⟩ := Option.bind_eq_some_iff.mp ha
  obtain ⟨fin, hfin, ha⟩ := Option.bind_eq_some_iff.mp ha
  cases ha
  obtain ⟨mid', hmid', hshape⟩ := h.insertDek hmid
  obtain ⟨fin', hfin', hshape⟩ := hshape.foldlM (fun _ x y h => h.insertWrap x y) hkeys hfin
  refine ⟨fin', ?_, hshape⟩
  rw [hmid', Option.bind_eq_bind, Option.bind_some]
  exact congrArg (Option.bind · _) hfin'

theorem revokeReadAndRotate {n : Nat} {xs ys : List (String × Bytes)} (h : SameShape a b)
    (hkeys : xs.map Prod.fst = ys.map Prod.fst)
    (ha : Store.revokeReadAndRotate a g i p r xs = some (n, a')) :
    ∃ b', Store.revokeReadAndRotate b g i p r ys = some (n, b') ∧ SameShape a' b' := by
  have hempty : ys.isEmpty = xs.isEmpty := by
    rw [← List.isEmpty_map (f := Prod.fst), ← hkeys, List.isEmpty_map]
  unfold Store.revokeReadAndRotate at ha ⊢
  rw [hempty]
  split at ha
  · cases ha
  · next hne =>
    split at ha
    · cases ha
    · next hp =>
      obtain ⟨mid, hmid, ha⟩ := Option.bind_eq_some_iff.mp ha
      obtain ⟨mid', hmid', hshape⟩ := h.setPerms hmid
      rw [if_neg hne, if_neg hp, hmid']
      exact (hshape.deleteWraps g r).insertDekVersion hkeys ha

end SameShape

/-! ## 乱数の違う wrap -/

/-- 同じ鍵を返す二つの `mapM` は、同じ鍵の列を返す。 -/
theorem mapM_keys {α K : Type} {f g : α → Option (K × Bytes)}
    (hfg : ∀ a x, f a = some x → ∃ y, g a = some y ∧ x.1 = y.1) {l : List α}
    {xs : List (K × Bytes)} (h : l.mapM f = some xs) :
    ∃ ys, l.mapM g = some ys ∧ xs.map Prod.fst = ys.map Prod.fst := by
  induction l generalizing xs with
  | nil =>
    cases h
    exact ⟨[], rfl, rfl⟩
  | cons e l ih =>
    rw [List.mapM_cons] at h
    obtain ⟨x, hx, h⟩ := Option.bind_eq_some_iff.mp h
    obtain ⟨rest, hrest, h⟩ := Option.bind_eq_some_iff.mp h
    cases h
    obtain ⟨y, hy, hkey⟩ := hfg e x hx
    obtain ⟨ys, hys, hkeys⟩ := ih hrest
    refine ⟨y :: ys, ?_, congrArg₂ List.cons hkey hkeys⟩
    rw [List.mapM_cons, hy, hys]
    rfl

variable {db db' : Db} {inner : Inner} {amb : Ambient} {gid : Nat}

/-- READ を得る identity への wrap の置き場所は、乱数によらない。 -/
theorem wrapsForNewReader_keys {op : AgeIdentity} {seed : Nat → String → Bytes} {e : String}
    {xs : List (Nat × Bytes)} (h : Bunker.wrapsForNewReader prim op seed db gid e = some xs)
    (seed' : Nat → String → Bytes) : ∃ ys,
      Bunker.wrapsForNewReader prim op seed' db gid e = some ys ∧
        xs.map Prod.fst = ys.map Prod.fst := by
  unfold Bunker.wrapsForNewReader at h ⊢
  obtain ⟨recipient, hrec, h⟩ := Option.bind_eq_some_iff.mp h
  rw [hrec]
  refine mapM_keys (fun version x hx => ?_) h
  obtain ⟨dek, hdek, hx⟩ := Option.bind_eq_some_iff.mp hx
  cases hx
  rw [hdek]
  exact ⟨_, rfl, rfl⟩

/-- 新しい DEK の wrap の置き場所は、DEK にも公開鍵にも乱数にもよらない。 -/
theorem wrapSetForGroup_keys {op backup : Recipient} {seed : String → Bytes} {dek : Dek}
    {ex : Option String} {xs : List (String × Bytes)}
    (h : Bunker.wrapSetForGroup prim op backup seed db gid dek ex = some xs) (op' backup' : Recipient)
    (seed' : String → Bytes) (dek' : Dek) : ∃ ys,
      Bunker.wrapSetForGroup prim op' backup' seed' db gid dek' ex = some ys ∧
        xs.map Prod.fst = ys.map Prod.fst := by
  unfold Bunker.wrapSetForGroup at h ⊢
  obtain ⟨readers, hreaders, h⟩ := Option.bind_eq_some_iff.mp h
  cases h
  have hkeys : ∃ ys, List.mapM (fun reader : Identity =>
      Bunker.wrapForReader prim seed' dek' reader.endpointId)
        ((readGrantedIdentities db gid).filter fun reader => some reader.endpointId ≠ ex) = some ys ∧
      readers.map Prod.fst = ys.map Prod.fst := by
    refine mapM_keys (fun reader x hx => ?_) hreaders
    obtain ⟨recipient, hrec, rfl⟩ := Option.map_eq_some_iff.mp hx
    exact ⟨_, congrArg (Option.map _) hrec, rfl⟩
  obtain ⟨ys, hys, hkeys⟩ := hkeys
  refine ⟨_, congrArg (Option.bind · _) hys, ?_⟩
  rw [List.map_append, List.map_append, hkeys]
  rfl

/-! ## 二つの grant -/

section Branches

variable {group identity : String} {target : Identity} {p : UInt8} {fin : Db}

/-- READ を得る grant。渡された operational key は記録と合う。 -/
theorem grantLocally_gain {key : AgeIdentity} {ys : List (Nat × Bytes)}
    (before : hasBit (perms db target.id gid) permRead = false) (after : hasBit p permRead = true)
    (hrecorded : metaGet db "operational_pubkey" = some (prim.toPublic key).bech32)
    (hwraps : Node.wrapsForGrantee prim key (amb.seed 0) db gid target.endpointId = some ys)
    (hfin : grantWithWraps db target.id gid p ys target.endpointId = some fin) :
    Node.grantLocally prim amb db gid group identity target p (some key) =
      some (Store.audit fin prim amb.now "(local)" "db-grant" (group ++ ":" ++ identity) "ok") := by
  unfold Node.grantLocally
  rw [before, after]
  dsimp only
  rw [hrecorded, Option.bind_eq_bind, Option.bind_some, Option.bind_eq_bind, Option.bind_some,
    if_neg (not_not.mpr rfl), hwraps]
  exact congrArg (Option.bind · _) hfin

/-- READ を失う grant。包む先の公開鍵は database の記録から取る。 -/
theorem grantLocally_lose {key : Option AgeIdentity} {op backup : Recipient}
    {ys : List (String × Bytes)} {n : Nat}
    (before : hasBit (perms db target.id gid) permRead = true) (after : hasBit p permRead = false)
    (hop : Node.recordedRecipient prim db "operational_pubkey" = some op)
    (hbackup : Node.recordedRecipient prim db "backup_pubkey" = some backup)
    (hwraps : Node.wrapsAfterRevoke prim op backup (amb.seed 0 0) db gid (amb.dek 0)
      target.endpointId = some ys)
    (hfin : revokeReadAndRotate db gid target.id p target.endpointId ys = some (n, fin)) :
    Node.grantLocally prim amb db gid group identity target p key =
      some (Store.audit
        (Store.audit fin prim amb.now "(local)" "db-grant" (group ++ ":" ++ identity) "ok")
        prim amb.now "(local)" "rotate-dek" group "ok") := by
  unfold Node.grantLocally
  rw [before, after]
  dsimp only
  rw [hop, Option.bind_eq_bind, Option.bind_some, hbackup, Option.bind_eq_bind, Option.bind_some,
    hwraps]
  exact congrArg (Option.bind · _) hfin

/-- READ の動かない grant は、鍵に触れない。 -/
theorem grantLocally_keep {key : Option AgeIdentity}
    (same : hasBit p permRead = hasBit (perms db target.id gid) permRead)
    (hfin : setPerms db target.id gid p = some fin) :
    Node.grantLocally prim amb db gid group identity target p key =
      some (Store.audit fin prim amb.now "(local)" "db-grant" (group ++ ":" ++ identity) "ok") := by
  unfold Node.grantLocally
  rw [same]
  dsimp only
  cases hasBit (perms db target.id gid) permRead with
  | true => exact congrArg (Option.bind · _) hfin
  | false => exact congrArg (Option.bind · _) hfin

end Branches

/-- 通った要求と同じ書き込みが、開き直した database で通る。 -/
theorem grantLocally_of_effect (laws : prim.Lawful) {key : AgeIdentity} {ident : Identity}
    {group identity : String} {p : UInt8} (hnew : Bunker.new prim db key = some inner)
    (heff : Effect prim inner amb db ident (.grant group identity p) .ok db') (amb' : Ambient) :
    ∃ gid target, groupId db group = some gid ∧ identityByName db identity = some target ∧
      ∃ fin, Node.grantLocally prim amb' (openDb db) gid group identity target p (some key) =
        some fin ∧ SameShape db' fin := by
  obtain ⟨-, hrecorded, -, rfl, -⟩ := new_eq_some.mp hnew
  obtain ⟨hmatches, -⟩ := matches_of_new laws hnew
  obtain ⟨t, hopen, hmeta⟩ := openDb_spec db
  have hmeta' := (hmeta "operational_pubkey" (by decide) (by decide)).trans hrecorded
  have hop : Node.recordedRecipient prim (db.withMeta t) "operational_pubkey" =
      some inner.opRecipient := by
    rw [← hopen, ← recipientOf_operational, recipientOf_openDb]
    exact hmatches.operational
  have hbackup : Node.recordedRecipient prim (db.withMeta t) "backup_pubkey" =
      some inner.backupRecipient := by
    rw [← hopen, ← recipientOf_backup, recipientOf_openDb]
    exact hmatches.backup
  have hshape := SameShape.withMeta db t
  rw [hopen]
  cases heff with
  | none quiet =>
    rcases quiet with h | h
    · cases h
    · exact absurd rfl h
  | @gainRead _ _ _ gid target _ _ auth named before after wrapped granted =>
    refine ⟨_, _, groupId_of_authorizeGroup auth, named, ?_⟩
    obtain ⟨ys, hys, hkeys⟩ := wrapsForNewReader_keys wrapped (amb'.seed 0)
    obtain ⟨fin, hfin, hsame⟩ := hshape.grantWithWraps hkeys granted
    have hwraps : Node.wrapsForGrantee prim inner.opIdentity (amb'.seed 0) (db.withMeta t) gid
        target.endpointId = some ys := (Node.wrapsForGrantee_eq ..).trans hys
    exact ⟨_, grantLocally_gain before after hmeta' hwraps hfin, hsame.audit _ _⟩
  | @loseRead _ _ _ gid _ target _ _ auth named before after wrapped revoked =>
    refine ⟨_, _, groupId_of_authorizeGroup auth, named, ?_⟩
    obtain ⟨ys, hys, hkeys⟩ := wrapSetForGroup_keys wrapped inner.opRecipient inner.backupRecipient
      (amb'.seed 0 0) (amb'.dek 0)
    obtain ⟨fin, hfin, hsame⟩ := hshape.revokeReadAndRotate hkeys revoked
    have hwraps : Node.wrapsAfterRevoke prim inner.opRecipient inner.backupRecipient (amb'.seed 0 0)
        (db.withMeta t) gid (amb'.dek 0) target.endpointId = some ys :=
      (Node.wrapsAfterRevoke_eq ..).trans hys
    exact ⟨_, grantLocally_lose before after hop hbackup hwraps hfin, hsame.audit _ _⟩
  | @keepRead _ _ _ gid target _ auth named same set =>
    refine ⟨_, _, groupId_of_authorizeGroup auth, named, ?_⟩
    obtain ⟨fin, hfin, hsame⟩ := hshape.setPerms set
    exact ⟨_, grantLocally_keep same hfin, hsame.audit _ _⟩

/-- server が通した grant は、CLI でも同じ形の結果になる。 -/
theorem dbGrant_of_handle (laws : prim.Lawful) {key : AgeIdentity} {remote group identity text : String}
    {p : UInt8} (hnew : Bunker.new prim db key = some inner)
    (htext : Node.parsePerms text = some p)
    (hok : (Bunker.handle prim inner amb db remote (.grant group identity p)).response = .ok)
    (amb' : Ambient) :
    ∃ fin, Node.dbGrant prim amb' (openDb db) group identity text (some key) = some fin ∧
      SameShape (Bunker.handle prim inner amb db remote (.grant group identity p)).db fin := by
  have hresp : (Bunker.dispatch prim inner amb db remote (.grant group identity p)).1 = .ok := hok
  rcases @dispatch_cases prim inner amb db remote (.grant group identity p) with
    ⟨-, hdenied⟩ | ⟨ident, -, heff⟩
  · rw [hdenied] at hresp
    cases hresp
  · rw [hresp] at heff
    obtain ⟨gid, target, hgroup, hnamed, fin, hfin, hshape⟩ :=
      grantLocally_of_effect laws hnew heff amb'
    refine ⟨fin, ?_, hshape.audit _ fin.auditLog⟩
    obtain ⟨t, hopen, hmeta⟩ := openDb_spec db
    have hinitialized : isInitialized (openDb db) = true := by
      unfold isInitialized
      rw [hopen, hmeta _ (by decide) (by decide), (new_eq_some.mp hnew).2.1]
      rfl
    have hgroup' : groupId (openDb db) group = some gid := by rw [hopen]; exact hgroup
    have hnamed' : identityByName (openDb db) identity = some target := by rw [hopen]; exact hnamed
    unfold Node.dbGrant
    rw [hinitialized, htext, hgroup', hnamed']
    exact hfin

/-- 三つの許可のどの組み合わせも、`db grant` の引数に書ける。 -/
theorem exists_parsePerms {p : UInt8} (h : p &&& ~~~(permRead ||| permWrite ||| permAdmin) = 0) :
    ∃ text, Node.parsePerms text = some p := by
  have hall : ∀ n < 256, UInt8.ofNat n &&& ~~~(permRead ||| permWrite ||| permAdmin) = 0 →
      ["none", "r", "w", "rw", "a", "ra", "wa", "rwa"].any
        (fun text => Node.parsePerms text == some (UInt8.ofNat n)) = true := by
    decide +kernel
  have hp : UInt8.ofNat p.toNat = p := UInt8.ofNat_toNat
  have htext := hall p.toNat p.toNat_lt (by rw [hp]; exact h)
  rw [hp] at htext
  obtain ⟨text, -, htext⟩ := List.any_eq_true.mp htext
  exact ⟨text, beq_iff_eq.mp htext⟩

/--
**offline の grant は、server の grant と同じことをする。** service admin の、あるいは誰の要求であれ、
それが通る database では、記録された operational key を渡した `db grant` も通り、乱数の違いを忘れれば
同じ database を残す。
最後の admin を守るためにだけ断られる要求でも、`db grant` は鍵の不変条件を保つ。
-/
theorem offline_grant_matches (laws : prim.Lawful) {op backup endpoint name : String} {db₀ : Db}
    (hlen : endpoint.length = 64) (hinit : Node.init op backup endpoint name = some db₀)
    (ops : List (Node.Op × Ambient)) {key : AgeIdentity} {inner : Inner}
    (hnew : Bunker.new prim (Node.exec prim db₀ ops) key = some inner)
    (remote group identity : String) {p : UInt8}
    (hmask : p &&& ~~~(permRead ||| permWrite ||| permAdmin) = 0) (amb amb' : Ambient) :
    (∃ text, Node.parsePerms text = some p) ∧ ∀ text, Node.parsePerms text = some p →
      ((Bunker.handle prim inner amb (Node.exec prim db₀ ops) remote
          (.grant group identity p)).response = .ok →
        ∃ fin, Node.dbGrant prim amb' (openDb (Node.exec prim db₀ ops)) group identity text
            (some key) = some fin ∧
          SameShape (Bunker.handle prim inner amb (Node.exec prim db₀ ops) remote
            (.grant group identity p)).db fin) ∧
      ((Bunker.handle prim inner amb (Node.exec prim db₀ ops) remote
          (.grant group identity p)).response =
          .failed ("cannot remove the last admin of group '" ++ group ++ "'") →
        KeyWrap prim (Node.step prim (Node.exec prim db₀ ops)
          (.dbGrant group identity text (some key)) amb').2) := by
  refine ⟨exists_parsePerms hmask, fun text htext => ⟨fun hok => ?_, fun _ => ?_⟩⟩
  · exact dbGrant_of_handle laws hnew htext hok amb'
  · exact keyWrap_step laws _ _ _ (keyWrap_exec laws (keyWrap_init hlen hinit) ops)

/-- READ を取り上げる grant は、どちらの道でも DEK を回す。 -/
theorem offline_grant_matches_sample :
    ∃ fin, Node.dbGrant plain (sampleAmbient 9) (openDb (Node.exec plain sampleDb sampleGranted)) "g"
        "bob" "none" (some ⟨"o"⟩) = some fin ∧
      SameShape (Bunker.handle plain sampleInner (sampleAmbient 4)
        (Node.exec plain sampleDb sampleGranted) (samplePeer 'a') (.grant "g" "bob" 0)).db fin :=
  ((offline_grant_matches plain_lawful (by decide) init_sampleDb sampleGranted (by decide +kernel)
    (samplePeer 'a') "g" "bob" (by decide) (sampleAmbient 4) (sampleAmbient 9)).2 "none"
      (by decide)).1 (by decide +kernel)

end SecretBunker
