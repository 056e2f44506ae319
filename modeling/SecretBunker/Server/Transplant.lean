import SecretBunker.Crypto.Bytes
import SecretBunker.Replica.Engine
import SecretBunker.Server.Numbering
import SecretBunker.Server.Sealed

/-!
# 行の移し替え

暗号文の行は、別の場所に写しても読めない。associated data は group、名前、version、DEK version の四つ組を
一つに決め、読む側はそれを行からではなく読む場所から組み立て直す。

1. associated data は単射である（`secretAad_inj`）。
2. 到達できる store の行は、どれも自分の場所の associated data で暗号化されている（`Bound`）。
3. 別の行の中身で上書きした行を読むと、associated data が食い違って復号に失敗する。
-/

namespace SecretBunker

open Delimited Relational Store

/-! ## associated data -/

/-- 名前の長さと番号が 64 bit に収まる場所。Rust の値はつねにそうである。 -/
structure Located (group name : String) (version dekVersion : Nat) : Prop where
  group : (asBytes group).length < 2 ^ 64
  name : (asBytes name).length < 2 ^ 64
  version : version < 2 ^ 64
  dekVersion : dekVersion < 2 ^ 64

/-- **associated data は場所を一つに決める。** -/
theorem secretAad_inj {g g' n n' : String} {v v' d d' : Nat} (h : Located g n v d)
    (h' : Located g' n' v' d') (heq : secretAad g n v d = secretAad g' n' v' d') :
    g = g' ∧ n = n' ∧ v = v' ∧ d = d' := by
  have hsized := selfDelimiting_toBeBytes.sized.comap (f := asBytes) fun _ _ => asBytes_inj
  have hcode := hsized.pair (hsized.pair (selfDelimiting_toBeBytes.pair selfDelimiting_toBeBytes))
  unfold secretAad at heq
  simp only [List.append_assoc, List.append_cancel_left_eq] at heq
  obtain ⟨hquad, -⟩ := hcode (g, n, v, d) (g', n', v', d') [] []
    ⟨h.group, h.name, h.version, h.dekVersion⟩ ⟨h'.group, h'.name, h'.version, h'.dekVersion⟩
    (by simpa only [List.append_assoc, List.append_nil] using heq)
  cases hquad
  exact ⟨rfl, rfl, rfl, rfl⟩

variable {prim : Primitives} {db db' : Db}

/-! ## 場所に縛られた行 -/

/-- version の行は、自分の場所の associated data で暗号化されている。 -/
def Placed (prim : Primitives) (db : Db) (s : SecretRow) (v : VersionRow) : Prop :=
  ∃ group, ⟨s.groupId, group⟩ ∈ db.secretGroup ∧ ∃ dek nonce value,
    v.ciphertext = prim.aeadEncrypt dek nonce (secretAad group s.name v.version v.dekVersion) value

/-- どの version の行も、自分の場所に縛られている。 -/
def Bound (prim : Primitives) (db : Db) : Prop :=
  ∀ s ∈ db.secret, ∀ v ∈ db.secretVersion, v.secretId = s.id → Placed prim db s v

theorem Placed.mono {s : SecretRow} {v : VersionRow} (h : Placed prim db s v)
    (hg : ∀ g ∈ db.secretGroup, g.id = s.groupId → g ∈ db'.secretGroup) : Placed prim db' s v := by
  obtain ⟨group, hgroup, hsealed⟩ := h
  exact ⟨group, hg _ hgroup rfl, hsealed⟩

/-- 行の全体から見た縛り。 -/
theorem bound_iff : Bound prim db ↔
    ∀ g n s vs, holding db g n = some (s, vs) → ∀ v ∈ vs, Placed prim db s v := by
  constructor
  · intro h g n s vs hh v hv
    obtain ⟨s', hs', he⟩ := Option.map_eq_some_iff.mp hh
    cases he
    obtain ⟨hv, hid⟩ := List.mem_filter.mp hv
    exact h s (secretRow_eq_some.mp hs').1 v hv (beq_iff_eq.mp hid)
  · intro h s hs v hv hid
    exact h _ _ s _ (holding_of_mem hs) v (List.mem_filter.mpr ⟨hv, beq_iff_eq.mpr hid⟩)

/-- 一歩の後の行は、元の行か、書く場所で暗号化した行である。 -/
theorem Bound.rowStep (h : Bound prim db) (hs : RowStep prim db db')
    (hg : ∀ g ∈ db.secretGroup, g ∈ db'.secretGroup) : Bound prim db' := by
  rw [bound_iff] at h ⊢
  intro g n s vs hrows v hv
  cases hs with
  | keep same =>
    rw [holding_congr same.1 same.2] at hrows
    exact (h g n s vs hrows v hv).mono fun g hm _ => hg g hm
  | @put group name writer value gid e dv sid dek nonce now located before after =>
    rw [after] at hrows
    split at hrows
    · cases hrows
      rcases List.mem_append.mp hv with hv | hv
      · unfold held at hv
        cases hh : holding db gid name with
        | none =>
          rw [hh] at hv
          cases hv
        | some x =>
          rw [hh] at hv
          obtain ⟨r, hrow, he⟩ := Option.map_eq_some_iff.mp hh
          obtain ⟨-, hrg, hrn⟩ := secretRow_eq_some.mp hrow
          cases he
          obtain ⟨group', hgroup, hsealed⟩ := h gid name _ _ hh v hv
          rw [hrg] at hgroup
          rw [hrn] at hsealed
          exact ⟨group', hg _ hgroup, hsealed⟩
      · rw [List.mem_singleton.mp hv]
        exact ⟨group, hg _ (groupId_eq_some.mp located), dek, nonce, value, rfl⟩
    · exact (h g n s vs hrows v hv).mono fun g hm _ => hg g hm
  | delete after =>
    rw [after] at hrows
    split at hrows
    · cases hrows
    · exact (h g n s vs hrows v hv).mono fun g hm _ => hg g hm

theorem bound_exec (laws : prim.Lawful) {op backup endpoint name : String} {db₀ : Db}
    (hlen : endpoint.length = 64) (hinit : Node.init op backup endpoint name = some db₀)
    (ops : List (Node.Op × Ambient)) : Bound prim (Node.exec prim db₀ ops) := by
  have hstart : Consistent prim db₀ ∧ Bound prim db₀ := by
    refine ⟨consistent_init hlen hinit, ?_⟩
    obtain ⟨m, t, ht, rfl, -⟩ := init_spec hinit
    exact fun s hs => absurd hs Table.mem_empty
  refine (Node.exec_induction prim (motive := fun db => Consistent prim db ∧ Bound prim db) hstart
    (fun db op amb hi => ⟨consistent_step laws db op amb hi.1, ?_⟩) ops).2
  exact hi.2.rowStep (rowStep_step hi.1.secrets op amb) (stable_step laws hi.1.keys op amb).groups

/-! ## mirror -/

/-- 取り寄せた行は、権威 node のどれかの時点の現在の行である。 -/
def Store.MirrorOp.Honest (prim : Primitives) (db₀ : Db) : MirrorOp → Prop
  | .apply _ state fetched => ∀ f ∈ fetched, ∃ ops gid,
      groupId (Node.exec prim db₀ ops) state.name = some gid ∧
      secretDataCurrent (Node.exec prim db₀ ops) gid f.name = some f.toSecretDataRow
  | _ => True

/-- 誠実な上流からの適用は、行と場所の結び付きを保つ。 -/
theorem Bound.mirrorStep {db₀ : Db} (hnode : ∀ ops, Bound prim (Node.exec prim db₀ ops))
    (h : Bound prim db) {op : MirrorOp} (hop : op.Honest prim db₀) : Bound prim (op.step db) := by
  rw [bound_iff] at h ⊢
  intro g n s vs hrows v hv
  cases op with
  | apply own state fetched =>
    obtain ⟨gid, hr, hcases⟩ := apply_cases db own state fetched
    rcases hcases g n with hnone | hsame | ⟨-, f, hf, -, sid, hnew⟩
    · cases hnone.symm.trans hrows
    · refine (h g n s vs (hsame.symm.trans hrows) v hv).mono fun r hm _ => ?_
      exact (hr.groups r).mpr (Or.inl hm)
    · obtain ⟨rfl, rfl⟩ := Prod.mk.inj (Option.some.inj (hrows.symm.trans hnew))
      rw [List.mem_singleton.mp hv]
      -- 権威 node の行の縛りは、group の名前と secret の名前を通して mirror に移る
      obtain ⟨ops, gid', hgid', hdata⟩ := hop f hf
      obtain ⟨s', hs', hsg, hsn, v', hv', hid, -, hrow⟩ := secretDataCurrent_eq_some.mp hdata
      obtain ⟨group, hgroup, dek, nonce, value, hsealed⟩ := hnode ops s' hs' v' hv' hid
      have hname : group = state.name := congrArg GroupRow.name
        (Table.eq_of_conflict hgroup (groupId_eq_some.mp hgid') (Or.inl hsg))
      refine ⟨state.name, (hr.groups _).mpr (Or.inr rfl), dek, nonce, value, ?_⟩
      rw [hname, hsn] at hsealed
      show f.ciphertext = prim.aeadEncrypt dek nonce (secretAad state.name f.name f.version
        f.dekVersion) value
      rw [← hrow]
      exact hsealed
  | drop name =>
    rcases drop_cases db name g n with hnone | hsame
    · cases hnone.symm.trans hrows
    · refine (h g n s vs (hsame.symm.trans hrows) v hv).mono fun r hm hid => ?_
      obtain ⟨r', hr', hid'⟩ := Db.secretInGroup _ s (mem_of_holding hrows)
      obtain rfl : r' = r := Table.eq_of_conflict (Table.mem_delete.mp hr').1 hm
        (Or.inl (hid'.trans hid.symm))
      exact hr'
  | gc => exact h g n s vs hrows v hv

theorem Bound.mirrorExec {db₀ : Db} (hnode : ∀ ops, Bound prim (Node.exec prim db₀ ops))
    (h : Bound prim db) {ops : List MirrorOp} (hops : ∀ op ∈ ops, op.Honest prim db₀) :
    Bound prim (MirrorOp.exec db ops) := by
  induction ops generalizing db with
  | nil => exact h
  | cons op rest ih =>
    exact ih (h.mirrorStep hnode (hops op List.mem_cons_self)) fun op' hop' =>
      hops op' (List.mem_cons_of_mem _ hop')

/-! ## 移し替え -/

/-- AEAD の認証：暗号文は、作った時の associated data でしか開かない。 -/
def Authentic (prim : Primitives) : Prop :=
  ∀ dek nonce aad value dek' nonce' aad' value',
    prim.aeadDecrypt dek' nonce' aad' (prim.aeadEncrypt dek nonce aad value) = some value' → aad' = aad

/-- 行から写すもの。 -/
inductive Copy where
  /-- version、DEK version、nonce、暗号文。 -/
  | row
  /-- nonce と暗号文だけ。 -/
  | payload

/-- `t` に `r` の中身を写した行。 -/
def Copy.onto : Copy → VersionRow → VersionRow → VersionRow
  | .row, r, t => { t with
      version := r.version, dekVersion := r.dekVersion, nonce := r.nonce, ciphertext := r.ciphertext }
  | .payload, r, t => { t with nonce := r.nonce, ciphertext := r.ciphertext }

/-- version の行を一つ除く。 -/
def Db.dropVersion (db : Db) (t : VersionRow) : Db :=
  db.withSecrets db.secret (db.secretVersion.delete (· == t)) db.secretInGroup
    (db.versionOfSecret.mono (fun _ hr => (Table.mem_delete.mp hr).1) fun s hs => ⟨s, hs, rfl⟩)

/-- UPDATE secret_version。主 key が重なれば失敗する。 -/
def overwriteVersion (db : Db) (t forged : VersionRow) : Option Db :=
  (db.dropVersion t).insertVersion forged

/-- `r` の中身を別の行 `t` に写した store。`current_version` は、そのままか、書いた行を指す。 -/
structure Transplanted (copy : Copy) (r t : VersionRow) (db db' : Db) : Prop where
  source : r ∈ db.secretVersion
  target : t ∈ db.secretVersion
  other : r ≠ t
  written : ∃ mid, overwriteVersion db t (copy.onto r t) = some mid ∧
    (db' = mid ∨ db' = mid.setCurrentVersion t.secretId (copy.onto r t).version)

/-- 名前の長さと番号が 64 bit に収まる store。 -/
structure Sized (db : Db) : Prop where
  groups : ∀ g ∈ db.secretGroup, (asBytes g.name).length < 2 ^ 64
  names : ∀ s ∈ db.secret, (asBytes s.name).length < 2 ^ 64
  versions : ∀ v ∈ db.secretVersion, v.version < 2 ^ 64 ∧ v.dekVersion < 2 ^ 64

/-- Get が読む行。 -/
def currentOf (db : Db) (group name : String) : Option VersionRow :=
  (groupId db group).bind fun gid => (secretRow db gid name).bind (currentRow db)

namespace Transplanted

variable {copy : Copy} {r t : VersionRow}

theorem onto_secretId (copy : Copy) (r t : VersionRow) : (copy.onto r t).secretId = t.secretId := by
  cases copy with
  | row => rfl
  | payload => rfl

theorem onto_payload (copy : Copy) (r t : VersionRow) :
    (copy.onto r t).nonce = r.nonce ∧ (copy.onto r t).ciphertext = r.ciphertext := by
  cases copy with
  | row => exact ⟨rfl, rfl⟩
  | payload => exact ⟨rfl, rfl⟩

theorem onto_versions (copy : Copy) (r t : VersionRow) :
    ((copy.onto r t).version = r.version ∧ (copy.onto r t).dekVersion = r.dekVersion) ∨
      ((copy.onto r t).version = t.version ∧ (copy.onto r t).dekVersion = t.dekVersion) := by
  cases copy with
  | row => exact Or.inl ⟨rfl, rfl⟩
  | payload => exact Or.inr ⟨rfl, rfl⟩

/-- 変わるのは secret の二つの表だけである。 -/
theorem spec (h : Transplanted copy r t db db') :
    ∃ ts u hg hv, db' = db.withSecrets ts u hg hv ∧
      (∀ v, v ∈ u ↔ (v ∈ db.secretVersion ∧ v ≠ t) ∨ v = copy.onto r t) ∧
      (∀ v ∈ db.secretVersion, v ≠ t → v.secretId = t.secretId →
        v.version ≠ (copy.onto r t).version) ∧
      ∀ s' ∈ ts, s' ∈ db.secret ∨ ∃ s ∈ db.secret, s.id = t.secretId ∧
        s' = { s with currentVersion := (copy.onto r t).version } := by
  obtain ⟨mid, hmid, hdb'⟩ := h.written
  obtain ⟨u, hg, hv, hu, rfl⟩ := insertVersion_eq_some hmid
  have hrows : ∀ v, v ∈ u ↔ (v ∈ db.secretVersion ∧ v ≠ t) ∨ v = copy.onto r t := by
    intro v
    rw [Table.mem_insert hu]
    show v ∈ db.secretVersion.delete _ ∨ _ ↔ _
    rw [Table.mem_delete, beq_eq_false_iff_ne]
  have hfree : ∀ v ∈ db.secretVersion, v ≠ t → v.secretId = t.secretId →
      v.version ≠ (copy.onto r t).version := by
    intro v hv hne hid hver
    refine (Table.insert_eq_some_iff.mp hu).1 v ?_ ⟨hid.trans (onto_secretId copy r t).symm, hver⟩
    exact Table.mem_delete.mpr ⟨hv, beq_eq_false_iff_ne.mpr hne⟩
  rcases hdb' with rfl | rfl
  · exact ⟨db.secret, u, hg, hv, rfl, hrows, hfree, fun s' hs' => Or.inl hs'⟩
  · refine ⟨_, u, _, _, rfl, hrows, hfree, fun s' hs' => ?_⟩
    obtain ⟨s, hs, rfl⟩ := mem_setCurrentVersion.mp hs'
    by_cases hid : s.id = t.secretId
    · refine Or.inr ⟨s, hs, hid, ?_⟩
      rw [← hid, Db.advance_self]
    · rw [Db.advance_of_ne _ hid]
      exact Or.inl hs

/-- 写した中身は、写した先の associated data では開かない。 -/
theorem unreadable (h : Transplanted copy r t db db') (hauth : Authentic prim)
    (hb : Bound prim db) (hsize : Sized db) {s : SecretRow} (hs : s ∈ db.secret)
    (hid : s.id = t.secretId) {group : String} (hg : ⟨s.groupId, group⟩ ∈ db.secretGroup) (dek : Dek) :
    decryptSecret prim dek (secretAad group s.name (copy.onto r t).version
      (copy.onto r t).dekVersion) (copy.onto r t).nonce (copy.onto r t).ciphertext = none := by
  obtain ⟨-, -, -, -, -, -, hfree, -⟩ := h.spec
  obtain ⟨sr, hsr, hrid⟩ := db.versionOfSecret r h.source
  obtain ⟨group', hgroup', dek', nonce', value, hsealed⟩ := hb sr hsr r h.source hrid.symm
  refine Option.eq_none_iff_forall_ne_some.mpr fun value' hvalue => ?_
  unfold decryptSecret at hvalue
  split at hvalue
  · rw [(onto_payload copy r t).2, hsealed] at hvalue
    have hlocated : Located group s.name (copy.onto r t).version (copy.onto r t).dekVersion := by
      refine ⟨hsize.groups _ hg, hsize.names s hs, ?_, ?_⟩
      all_goals rcases onto_versions copy r t with ⟨hv, hd⟩ | ⟨hv, hd⟩
      · exact hv ▸ (hsize.versions r h.source).1
      · exact hv ▸ (hsize.versions t h.target).1
      · exact hd ▸ (hsize.versions r h.source).2
      · exact hd ▸ (hsize.versions t h.target).2
    obtain ⟨rfl, hname, hversion, -⟩ := secretAad_inj hlocated
      ⟨hsize.groups _ hgroup', hsize.names sr hsr, (hsize.versions r h.source).1,
        (hsize.versions r h.source).2⟩ (hauth _ _ _ _ _ _ _ _ hvalue)
    -- 場所が同じなら secret も同じで、書いた行の主 key が `r` と重なる
    have hgid : s.groupId = sr.groupId := congrArg GroupRow.id
      (Table.eq_of_conflict hg hgroup' (Or.inr rfl))
    obtain rfl : s = sr := Table.eq_of_conflict hs hsr (Or.inr ⟨hgid, hname⟩)
    exact hfree r h.source h.other (hrid.symm.trans hid) hversion.symm
  · cases hvalue

/-- 写した行でない行を読むなら、それは元の store が読む行である。 -/
theorem current (h : Transplanted copy r t db db') {gid : Nat} {name : String} {s : SecretRow}
    {v : VersionRow} (hrow : secretRow db' gid name = some s) (hcur : currentRow db' s = some v)
    (hne : v ≠ copy.onto r t) : secretRow db gid name = some s ∧ currentRow db s = some v := by
  obtain ⟨ts, u, hg, hv, rfl, hrows, -, hsecrets⟩ := h.spec
  obtain ⟨hs, hgid, hname⟩ := secretRow_eq_some.mp hrow
  obtain ⟨hm, hid, hver⟩ := currentRow_eq_some.mp hcur
  rcases hsecrets s hs with hs | ⟨s', hs', hid', rfl⟩
  · have hold := ((hrows v).mp hm).resolve_right hne
    exact ⟨secretRow_eq_some.mpr ⟨hs, hgid, hname⟩, currentRow_eq_some.mpr ⟨hold.1, hid, hver⟩⟩
  · -- `current_version` を動かした secret の現在の行は、書いた行である
    refine absurd (Table.eq_of_conflict hm ((hrows _).mpr (Or.inr rfl)) ⟨?_, hver⟩) hne
    exact hid.trans (hid'.trans (onto_secretId copy r t).symm)

end Transplanted

/-! ## 読む側 -/

theorem readSecret_eq_secret {ident : Identity} {group name recipient : String} {key : AgeIdentity}
    {implicitAdmin : Bool} {value : Bytes} {version : Nat} :
    readSecret prim db ident group name recipient key implicitAdmin = .secret value version ↔
      ∃ gid sv, authorizeGroup db ident group permRead implicitAdmin = some gid ∧
        secretCurrent db gid name = some sv ∧
        openSecret prim db gid group name sv recipient key = some value ∧ sv.version = version := by
  unfold readSecret
  cases authorizeGroup db ident group permRead implicitAdmin with
  | none => simp
  | some gid =>
    dsimp only
    cases hsv : secretCurrent db gid name with
    | none => simp [hsv]
    | some sv =>
      dsimp only
      cases hvalue : openSecret prim db gid group name sv recipient key with
      | none => simp [hsv, hvalue, internalError]
      | some value' => simp [hsv, hvalue]

theorem get_eq_ok {own group name : String} {key : AgeIdentity} {value : Bytes} :
    Replica.get prim own key db group name = .ok value ↔
      ∃ gid sv, groupId db group = some gid ∧ secretCurrent db gid name = some sv ∧
        openSecret prim db gid group name sv own key = some value := by
  unfold Replica.get openSecret
  cases groupId db group with
  | none => simp
  | some gid =>
    dsimp only
    cases hsv : secretCurrent db gid name with
    | none => simp [hsv]
    | some sv =>
      dsimp only
      cases hwrap : Store.dekWrap db gid sv.dekVersion own with
      | none => simp [hsv, hwrap]
      | some wrapped =>
        dsimp only
        cases hvalue : (unwrapDek prim wrapped key).bind fun dek => decryptSecret prim dek
            (secretAad group name sv.version sv.dekVersion) sv.nonce sv.ciphertext with
        | none => simp [hsv, hwrap, hvalue]
        | some value' => simp [hsv, hwrap, hvalue]

/-- 上書きした store を読んでも、よその値は出てこない。 -/
structure Rejected (prim : Primitives) (forged : VersionRow) (db db' : Db) (group name : String) :
    Prop where
  /-- 書いた行を読めば、値は返らない。 -/
  unread : currentOf db' group name = some forged →
    (∀ ident recipient key implicitAdmin value version,
      readSecret prim db' ident group name recipient key implicitAdmin ≠ .secret value version) ∧
    ∀ own key value, Replica.get prim own key db' group name ≠ .ok value
  /-- 返る値は、上書きする前の store が返す値である。 -/
  own :
    (∀ ident recipient key implicitAdmin value version,
      readSecret prim db' ident group name recipient key implicitAdmin = .secret value version →
      readSecret prim db ident group name recipient key implicitAdmin = .secret value version) ∧
    ∀ own key value, Replica.get prim own key db' group name = .ok value →
      Replica.get prim own key db group name = .ok value

namespace Transplanted

variable {copy : Copy} {r t : VersionRow}

theorem secretCurrent_eq_some {gid : Nat} {name : String} {sv : SecretVersion} :
    secretCurrent db gid name = some sv ↔ ∃ s v, secretRow db gid name = some s ∧
      currentRow db s = some v ∧ ⟨v.version, v.dekVersion, v.nonce, v.ciphertext⟩ = sv := by
  unfold secretCurrent
  simp only [Option.bind_eq_some_iff, Option.map_eq_some_iff]
  exact ⟨fun ⟨s, hs, v, hv, he⟩ => ⟨s, v, hs, hv, he⟩, fun ⟨s, v, hs, hv, he⟩ => ⟨s, hs, v, hv, he⟩⟩

/-- 値が開けたなら、読んだ行は写した行ではない。 -/
theorem secretCurrent_of_opened (h : Transplanted copy r t db db') (hauth : Authentic prim)
    (hb : Bound prim db) (hsize : Sized db) {gid : Nat} {group name recipient : String}
    {key : AgeIdentity} {sv : SecretVersion} {value : Bytes} (hgid : groupId db' group = some gid)
    (hsv : secretCurrent db' gid name = some sv)
    (hopen : openSecret prim db' gid group name sv recipient key = some value) :
    currentOf db' group name ≠ some (copy.onto r t) ∧ secretCurrent db gid name = some sv := by
  obtain ⟨s, v, hs, hv, rfl⟩ := secretCurrent_eq_some.mp hsv
  have hcurrent : currentOf db' group name = some v := by
    unfold currentOf
    rw [hgid, Option.bind_some, hs, Option.bind_some, hv]
  have hne : v ≠ copy.onto r t := by
    rintro rfl
    obtain ⟨ts, u, hg, hv', rfl, -, -, hsecrets⟩ := h.spec
    obtain ⟨hm, rfl, rfl⟩ := secretRow_eq_some.mp hs
    have hid : s.id = t.secretId :=
      (currentRow_eq_some.mp hv).2.1.symm.trans (onto_secretId copy r t)
    have hgroup := groupId_eq_some.mp hgid
    have hnone : ∀ dek, decryptSecret prim dek (secretAad group s.name (copy.onto r t).version
        (copy.onto r t).dekVersion) (copy.onto r t).nonce (copy.onto r t).ciphertext = none := by
      rcases hsecrets s hm with hm | ⟨s', hs', hid', rfl⟩
      · exact h.unreadable hauth hb hsize hm hid hgroup
      · exact h.unreadable hauth hb hsize hs' hid' hgroup
    obtain ⟨wrapped, -, hopen⟩ := Option.bind_eq_some_iff.mp hopen
    obtain ⟨dek, -, hopen⟩ := Option.bind_eq_some_iff.mp hopen
    cases (hnone dek).symm.trans hopen
  obtain ⟨hs', hv'⟩ := h.current hs hv hne
  refine ⟨fun hforged => hne (Option.some.inj (hcurrent.symm.trans hforged)), ?_⟩
  exact secretCurrent_eq_some.mpr ⟨s, v, hs', hv', rfl⟩

/-- 移した行は、開けない。 -/
theorem rejected (h : Transplanted copy r t db db') (hauth : Authentic prim) (hb : Bound prim db)
    (hsize : Sized db) (group name : String) :
    Rejected prim (copy.onto r t) db db' group name := by
  obtain ⟨ts, u, hg, hv, rfl, -⟩ := h.spec
  refine ⟨fun hforged => ⟨?_, ?_⟩, ?_, ?_⟩
  · intro ident recipient key implicitAdmin value version hread
    obtain ⟨gid, sv, hgid, hsv, hopen, -⟩ := readSecret_eq_secret.mp hread
    exact (h.secretCurrent_of_opened hauth hb hsize (groupId_of_authorizeGroup hgid) hsv hopen).1
      hforged
  · intro own key value hget
    obtain ⟨gid, sv, hgid, hsv, hopen⟩ := get_eq_ok.mp hget
    exact (h.secretCurrent_of_opened hauth hb hsize hgid hsv hopen).1 hforged
  · intro ident recipient key implicitAdmin value version hread
    obtain ⟨gid, sv, hgid, hsv, hopen, hversion⟩ := readSecret_eq_secret.mp hread
    have hown := h.secretCurrent_of_opened hauth hb hsize (groupId_of_authorizeGroup hgid) hsv hopen
    exact readSecret_eq_secret.mpr ⟨gid, sv, hgid, hown.2, hopen, hversion⟩
  · intro own key value hget
    obtain ⟨gid, sv, hgid, hsv, hopen⟩ := get_eq_ok.mp hget
    have hown := h.secretCurrent_of_opened hauth hb hsize hgid hsv hopen
    exact get_eq_ok.mpr ⟨gid, sv, hgid, hown.2, hopen⟩

end Transplanted

/-- `init` した権威 node の store と、それに同期した mirror。 -/
inductive Reachable (prim : Primitives) (db₀ : Db) : Db → Prop
  | node (ops : List (Node.Op × Ambient)) : Reachable prim db₀ (Node.exec prim db₀ ops)
  | mirror {mirror₀ : Db} (hempty : ∀ s, s ∉ mirror₀.secret) (ops : List MirrorOp)
      (honest : ∀ op ∈ ops, op.Honest prim db₀) : Reachable prim db₀ (MirrorOp.exec mirror₀ ops)

theorem bound_reachable (laws : prim.Lawful) {op backup endpoint name : String} {db₀ : Db}
    (hlen : endpoint.length = 64) (hinit : Node.init op backup endpoint name = some db₀)
    (h : Reachable prim db₀ db) : Bound prim db := by
  have hnode := bound_exec laws hlen hinit
  cases h with
  | node ops => exact hnode ops
  | mirror hempty ops honest => exact Bound.mirrorExec hnode (fun s hs => absurd hs (hempty s)) honest

/-- **暗号文の行は移し替えられない。** associated data は場所を一つに決める。だから AEAD が認証するかぎり、
到達できる store のある行の中身を別の secret や別の version の行に写しても、書いた行を読む Get は値を返さず、
ほかの Get の返す値は写す前と同じである。 -/
theorem rows_not_transplantable (laws : prim.Lawful) (hauth : Authentic prim)
    {op backup endpoint name : String} {db₀ : Db} (hlen : endpoint.length = 64)
    (hinit : Node.init op backup endpoint name = some db₀) :
    (∀ g g' n n' v v' d d', Located g n v d → Located g' n' v' d' →
      secretAad g n v d = secretAad g' n' v' d' → g = g' ∧ n = n' ∧ v = v' ∧ d = d') ∧
    ∀ db, Reachable prim db₀ db → Sized db → ∀ copy r t db', Transplanted copy r t db db' →
      ∀ group name, Rejected prim (copy.onto r t) db db' group name :=
  ⟨fun _ _ _ _ _ _ _ _ => secretAad_inj, fun _ hdb hsize _ _ _ _ h =>
    h.rejected hauth (bound_reachable laws hlen hinit hdb) hsize⟩

/-- 二つの secret を持つ store。 -/
def sampleTwo : Db := Node.exec tagging sampleDb (sampleCalls [('a', .createGroup "g"),
  ('a', .put "g" "a" [1] 0), ('a', .put "g" "b" [2] 0)])

/-- `a` の nonce と暗号文を `b` に写す。 -/
def sampleForged : Option (VersionRow × VersionRow × Db) :=
  (currentOf sampleTwo "g" "a").bind fun r => (currentOf sampleTwo "g" "b").bind fun t =>
    (overwriteVersion sampleTwo t (Copy.payload.onto r t)).bind fun mid =>
      if r ≠ t ∧ currentOf mid "g" "b" = some (Copy.payload.onto r t) then some (r, t, mid) else none

/-- 写した先は読めなくなる。 -/
theorem rows_not_transplantable_sample :
    ∃ r t db', Transplanted .payload r t sampleTwo db' ∧
      currentOf db' "g" "b" = some (Copy.payload.onto r t) ∧
      ∀ own key value, Replica.get tagging own key db' "g" "b" ≠ .ok value := by
  obtain ⟨x, hx⟩ := Option.isSome_iff_exists.mp
    (show sampleForged.isSome = true by decide +kernel)
  obtain ⟨r, hr, hx⟩ := Option.bind_eq_some_iff.mp hx
  obtain ⟨t, ht, hx⟩ := Option.bind_eq_some_iff.mp hx
  obtain ⟨db', hdb', hx⟩ := Option.bind_eq_some_iff.mp hx
  split at hx
  · next hforged =>
    have hmem : ∀ {n v}, currentOf sampleTwo "g" n = some v → v ∈ sampleTwo.secretVersion := by
      intro n v hv
      obtain ⟨gid, -, hv⟩ := Option.bind_eq_some_iff.mp hv
      obtain ⟨s, -, hv⟩ := Option.bind_eq_some_iff.mp hv
      exact (currentRow_eq_some.mp hv).1
    have hsize : Sized sampleTwo := by
      refine ⟨?_, ?_, ?_⟩
      · show ∀ g ∈ sampleTwo.secretGroup.rows, _
        decide +kernel
      · show ∀ s ∈ sampleTwo.secret.rows, _
        decide +kernel
      · show ∀ v ∈ sampleTwo.secretVersion.rows, _
        decide +kernel
    have h : Transplanted .payload r t sampleTwo db' :=
      ⟨hmem hr, hmem ht, hforged.1, db', hdb', Or.inl rfl⟩
    have hauth : Authentic tagging := fun _ _ _ _ _ _ _ _ => tagging_opens_own
    have hrejected := (rows_not_transplantable tagging_lawful hauth (by decide) init_sampleDb).2
      sampleTwo (.node _) hsize .payload r t db' h "g" "b"
    exact ⟨r, t, db', h, hforged.2, (hrejected.unread hforged.2).2⟩
  · cases hx

end SecretBunker
