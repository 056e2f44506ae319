import SecretBunker.Server.Sealed

/-!
# 平文の版つき写像への詳細化

参照模型は `(group, name)` から `(value, version)` への平文の写像である。
認可を通った Get、List、Put、Delete の応答は、鍵の回転や recovery がどう挟まっても
この模型の答えと一致する。
-/

namespace SecretBunker

open Relational Store

/-! ## 参照模型 -/

namespace Reference

/-- 値と、その version。 -/
structure Entry where
  value : Bytes
  version : Nat
  deriving DecidableEq

/-- `(group, name)` ごとの値と version。 -/
abbrev Map := String → String → Option Entry

/-- 何も無い写像。 -/
def empty : Map := fun _ _ => none

/-- 現在の version。無ければ 0。 -/
def current (m : Map) (group name : String) : Nat := ((m group name).map (·.version)).getD 0

/-- 一つの名前の値を置き換える。 -/
def set (m : Map) (group name : String) (entry : Option Entry) : Map := fun g n =>
  if g = group ∧ n = name then entry else m g n

/-- 要求を受けた後の写像。 -/
def next (m : Map) : Request → Map
  | .put group name value e =>
    if current m group name = e.toNat then set m group name (some ⟨value, e.toNat + 1⟩) else m
  | .delete group name e =>
    if (m group name).map (·.version) = some e.toNat then set m group name none else m
  | _ => m

/-- 一点が決める Get の応答。 -/
def read : Option Entry → Response
  | some entry => .secret entry.value entry.version
  | none => .denied

/-- 写像が決める応答。List の答えは名前の昇順の一覧で、これも写像から一つに決まる。 -/
def Answers (m : Map) : Request → Response → Prop
  | .get group name, resp => resp = read (m group name)
  | .put group name _ e, resp =>
    resp = if current m group name = e.toNat then .version (e.toNat + 1)
      else .versionConflict (current m group name)
  | .delete group name e, resp =>
    resp = if (m group name).map (·.version) = some e.toNat then .ok
      else .versionConflict (current m group name)
  | .list group, resp =>
    ∃ names, resp = .names names ∧ names.Pairwise (fun a b => a.1 < b.1) ∧
      ∀ n v, (n, v) ∈ names ↔ (m group n).map (·.version) = some v
  | _, _ => True

end Reference

open Reference

/-- Get、List、Put、Delete が求める group と許可。 -/
def Request.needs : Request → Option (String × UInt8)
  | get group _ => some (group, permRead)
  | list group => some (group, permRead)
  | put group _ _ _ => some (group, permWrite)
  | delete group _ _ => some (group, permWrite)
  | _ => none

/-- 呼び手が `authorize_group` を通る。 -/
def passes (db : Db) (remote : String) (req : Request) : Bool :=
  match identityByEndpoint db remote, req.needs with
  | some ident, some (group, needed) =>
    (authorizeGroup db ident group needed ident.serviceAdmin).isSome
  | _, _ => false

/-- database と参照模型を並べて一歩進める。模型が見るのは、応答があり認可を通った要求だけである。 -/
def follow (prim : Primitives) (s : Db × Map) (op : Node.Op × Ambient) : Db × Map :=
  let outcome := Node.step prim s.1 op.1 op.2
  (outcome.2,
    match op.1, outcome.1 with
    | .handle _ remote req, some _ => if passes s.1 remote req then next s.2 req else s.2
    | _, _ => s.2)

/-- 操作の列の後の参照模型。 -/
def reference (prim : Primitives) (db : Db) (ops : List (Node.Op × Ambient)) : Map :=
  (ops.foldl (follow prim) (db, empty)).2

variable {prim : Primitives} {db db' : Db} {inner : Inner} {amb : Ambient} {ident : Identity}

theorem foldl_follow_fst (ops : List (Node.Op × Ambient)) (m : Map) :
    (ops.foldl (follow prim) (db, m)).1 = Node.exec prim db ops := by
  induction ops generalizing db m with
  | nil => rfl
  | cons op rest ih => exact ih _

theorem reference_snoc (ops : List (Node.Op × Ambient)) (op : Node.Op × Ambient) :
    reference prim db (ops ++ [op]) =
      (follow prim (Node.exec prim db ops, reference prim db ops) op).2 := by
  unfold reference
  rw [List.foldl_append, List.foldl_cons, List.foldl_nil, ← foldl_follow_fst ops empty]

/-! ## 対応 -/

/-- database の現在の行と、写像の一点の対応。 -/
def Represents (prim : Primitives) (db : Db) (gid : Nat) (group name : String)
    (entry : Option Entry) : Prop :=
  (secretDataCurrent db gid name = none ∧ entry = none) ∨
    ∃ row value, secretDataCurrent db gid name = some row ∧ entry = some ⟨value, row.version⟩ ∧
      Sealed prim db gid group name row value

/-- database が写像を暗号化して持っている。 -/
structure Simulates (prim : Primitives) (db : Db) (m : Map) : Prop where
  absent : ∀ g, groupId db g = none → ∀ n, m g n = none
  present : ∀ g gid, groupId db g = some gid → ∀ n, Represents prim db gid g n (m g n)

variable {gid : Nat} {group name : String} {entry : Option Entry} {m : Map}

theorem Represents.version (hc : Complete db) (h : Represents prim db gid group name entry) :
    secretVersion db gid name = entry.map (·.version) := by
  rw [hc.secretVersion_eq]
  rcases h with ⟨hrow, rfl⟩ | ⟨row, value, hrow, rfl, -⟩ <;> rw [hrow] <;> rfl

theorem Represents.stable (h : Represents prim db gid group name entry) (hs : Stable prim db db')
    (hrow : secretDataCurrent db' gid name = secretDataCurrent db gid name) :
    Represents prim db' gid group name entry := by
  rcases h with ⟨hr, he⟩ | ⟨row, value, hr, he, hseal⟩
  · exact Or.inl ⟨hrow.trans hr, he⟩
  · exact Or.inr ⟨row, value, hrow.trans hr, he, hseal.stable hs⟩

/-- 前の database に無い group は secret を持たない。 -/
theorem no_secret_of_new_group (hs : Stable prim db db') {g : String} (hold : groupId db g = none)
    (hnew : groupId db' g = some gid) (n : String) : secretDataCurrent db gid n = none := by
  rw [← Option.not_isSome_iff_eq_none, Option.isSome_iff_exists]
  rintro ⟨row, hrow⟩
  obtain ⟨g', hg', hid⟩ := group_of_secretDataCurrent hrow
  have hsame : g' = ⟨gid, g⟩ :=
    Table.eq_of_conflict (hs.groups g' hg') (groupId_eq_some.mp hnew) (Or.inl hid)
  exact groupId_eq_none.mp hold g' hg' (by rw [hsame])

/-- 一歩で変わった点だけを対応させれば、全体の対応は保たれる。 -/
theorem Simulates.step {m' : Map} (h : Simulates prim db m) (hs : Stable prim db db')
    (habsent : ∀ g n, groupId db g = none → m' g n = m g n)
    (hpoint : ∀ g gid n, groupId db' g = some gid →
      (secretDataCurrent db' gid n = secretDataCurrent db gid n ∧ m' g n = m g n) ∨
      Represents prim db' gid g n (m' g n)) : Simulates prim db' m' where
  absent := by
    intro g hg n
    have hold : groupId db g = none := by
      rw [groupId_eq_none] at hg ⊢
      exact fun g' hg' => hg g' (hs.groups g' hg')
    rw [habsent g n hold]
    exact h.absent g hold n
  present := by
    intro g gid hg n
    rcases hpoint g gid n hg with ⟨hrow, hm⟩ | hrep
    · rw [hm]
      cases hold : groupId db g with
      | none => exact Or.inl ⟨hrow.trans (no_secret_of_new_group hs hold hg n), h.absent g hold n⟩
      | some gid' =>
        obtain rfl : gid' = gid := Option.some.inj ((hs.groupId hold).symm.trans hg)
        exact (h.present g gid' hold n).stable hs hrow
    · exact hrep

theorem Simulates.same (h : Simulates prim db m) (hs : Stable prim db db')
    (hsame : SameSecrets db db') : Simulates prim db' m :=
  h.step hs (fun _ _ _ => rfl) fun _ gid n _ => Or.inl ⟨hsame.secretDataCurrent gid n, rfl⟩

/-- 一点の書き込みは、写像の一点の書き込みに対応する。 -/
theorem Simulates.set (h : Simulates prim db m) (hs : Stable prim db db')
    {row : Option SecretDataRow} (hg : groupId db group = some gid)
    (hset : SecretSet db db' gid name row) (hrep : Represents prim db' gid group name entry) :
    Simulates prim db' (Reference.set m group name entry) := by
  have hout : ∀ {g n}, ¬ (g = group ∧ n = name) → Reference.set m group name entry g n = m g n :=
    fun hne => if_neg hne
  refine h.step hs (fun g n hnone => hout ?_) fun g gid' n hg' => ?_
  · rintro ⟨rfl, -⟩
    rw [hg] at hnone
    cases hnone
  · by_cases hgn : g = group ∧ n = name
    · obtain ⟨rfl, rfl⟩ := hgn
      obtain rfl : gid = gid' := Option.some.inj ((hs.groupId hg).symm.trans hg')
      refine Or.inr ?_
      unfold Reference.set
      rw [if_pos ⟨rfl, rfl⟩]
      exact hrep
    · refine Or.inl ⟨?_, hout hgn⟩
      rw [hset.current, if_neg]
      rintro ⟨rfl, rfl⟩
      exact hgn ⟨groupId_inj hg' (hs.groupId hg), rfl⟩

/-! ## 応答 -/

theorem mem_group_of_groupId (h : groupId db group = some gid) :
    ∃ g ∈ db.secretGroup, g.id = gid := ⟨_, groupId_eq_some.mp h, rfl⟩

/-- 登録された version の DEK は、開いた bunker が必ず取り出せる。 -/
theorem unwrapOperational_isSome (laws : prim.Lawful) (hk : KeyWrap prim db)
    (hm : inner.Matches prim db) {v : Nat} (hv : ⟨gid, v⟩ ∈ db.groupDek) :
    ∃ b dek, Store.dekWrap db gid v recipientOperational = some b ∧
      unwrapDek prim b inner.opIdentity = some dek := by
  obtain ⟨dek, hdek⟩ := hk.opens hv
  have hkey : recipientOf prim db recipientOperational = some (prim.toPublic inner.opIdentity) := by
    rw [← hm.identity]
    exact hm.operational
  obtain ⟨b, hb, hopen⟩ := hk.operational_opens laws hv hdek hkey
  exact ⟨b, dek, hb, hopen⟩

theorem currentDekVersion_isSome (hk : KeyWrap prim db) (hg : groupId db group = some gid) :
    ∃ dv, currentDekVersion db gid = some dv := by
  obtain ⟨v, hv⟩ := hk.keyed _ (groupId_eq_some.mp hg)
  cases h : currentDekVersion db gid with
  | none => exact absurd hv (currentDekVersion_eq_none.mp h v)
  | some dv => exact ⟨dv, rfl⟩

/-- 認可を通った Get は、包んだ値をそのまま返す。 -/
theorem readSecret_answer (laws : prim.Lawful) (hk : KeyWrap prim db) (hm : inner.Matches prim db)
    {implicitAdmin : Bool}
    (hauth : authorizeGroup db ident group permRead implicitAdmin = some gid)
    (hrep : Represents prim db gid group name entry) :
    readSecret prim db ident group name recipientOperational inner.opIdentity implicitAdmin =
      Reference.read entry := by
  unfold readSecret
  rw [hauth]
  dsimp only
  rw [secretCurrent_eq]
  rcases hrep with ⟨hrow, rfl⟩ | ⟨row, value, hrow, rfl, hseal⟩
  · rw [hrow]
    rfl
  · obtain ⟨b, -, hb, -⟩ := unwrapOperational_isSome laws hk hm hseal.registered
    obtain ⟨dek, hdek, hvalue⟩ := hseal.decrypts laws (dekWrap_eq_some.mp hb)
      (hm.operational.trans (congrArg some hm.identity))
    have hopen : openSecret prim db gid group name
        ⟨row.version, row.dekVersion, row.nonce, row.ciphertext⟩ recipientOperational
        inner.opIdentity = some value := by
      unfold openSecret
      rw [hb, Option.bind_eq_bind, Option.bind_some, hdek]
      exact hvalue
    rw [hrow]
    dsimp only [Option.map_some]
    rw [hopen]
    rfl

/-- Get の応答は、認可と写像の一点だけで決まる。 -/
theorem get_answer (laws : prim.Lawful) (hk : KeyWrap prim db) (hm : inner.Matches prim db)
    (hrep : ∀ gid, groupId db group = some gid → Represents prim db gid group name entry)
    (amb : Ambient) (remote : String) :
    (Bunker.handle prim inner amb db remote (.get group name)).response =
      if passes db remote (.get group name) then Reference.read entry else .denied := by
  show (Bunker.dispatch prim inner amb db remote (.get group name)).1 = _
  unfold Bunker.dispatch
  cases hi : identityByEndpoint db remote with
  | none =>
    have hpass : passes db remote (.get group name) = false := by
      unfold passes
      rw [hi]
    rw [hpass]
    rfl
  | some ident =>
    have hpass : passes db remote (.get group name) =
        (authorizeGroup db ident group permRead ident.serviceAdmin).isSome := by
      unfold passes
      rw [hi]
      rfl
    rw [hpass]
    dsimp only [Bunker.dispatchAs]
    cases hauth : authorizeGroup db ident group permRead ident.serviceAdmin with
    | none =>
      unfold readSecret
      rw [hauth]
      rfl
    | some gid => exact readSecret_answer laws hk hm hauth (hrep gid (groupId_of_authorizeGroup hauth))

theorem list_answer (hc : Complete db) {implicitAdmin : Bool}
    (hauth : authorizeGroup db ident group permRead implicitAdmin = some gid)
    (hrep : ∀ n, Represents prim db gid group n (m group n)) :
    Answers m (.list group) (list db ident group implicitAdmin) := by
  unfold list
  rw [hauth]
  refine ⟨listSecrets db gid, rfl, ?_, fun n v => ?_⟩
  · have hnd := List.pairwise_map.mp (listSecrets_nodup db gid)
    exact ((sorted_sortOn _ _).and hnd).imp fun h => lt_of_le_of_ne h.1 h.2
  · rw [mem_listSecrets, (hrep n).version hc]

/-- 認可を通った Put は、いまの version を期待したときにだけ書く。 -/
theorem put_answer (laws : prim.Lawful) (hc : Consistent prim db) (hm : inner.Matches prim db)
    (hauth : authorizeGroup db ident group permWrite ident.serviceAdmin = some gid)
    (hlt : (secretVersion db gid name).getD 0 < 2 ^ 63) (amb : Ambient) (value : Bytes)
    (e : UInt64) :
    (Bunker.put prim inner amb db ident group name value e).1 =
      if (secretVersion db gid name).getD 0 = e.toNat then .version (e.toNat + 1)
      else .versionConflict ((secretVersion db gid name).getD 0) := by
  have hg := groupId_of_authorizeGroup hauth
  obtain ⟨dv, hdv⟩ := currentDekVersion_isSome hc.keys hg
  obtain ⟨b, dek, hb, hdek⟩ :=
    unwrapOperational_isSome laws hc.keys hm (currentDekVersion_eq_some.mp hdv).1
  unfold Bunker.put
  rw [hauth]
  dsimp only
  rw [hdv]
  dsimp only
  rw [hb]
  dsimp only
  by_cases he : (secretVersion db gid name).getD 0 = e.toNat
  · have hfits : ¬ 2 ^ 64 ≤ e.toNat + 1 := by omega
    obtain ⟨db', hput⟩ := @putSecret_succeeds db gid dv name ident.name
      amb.nonce.bytes (prim.aeadEncrypt dek amb.nonce (secretAad group name (e.toNat + 1) dv) value)
      amb.now hc.secrets (mem_group_of_groupId hg)
    rw [he] at hput
    rw [he, if_neg hfits, if_neg (fun h => h.1 rfl), hdek, if_pos rfl]
    dsimp only [encryptSecret]
    rw [hput]
  · rw [if_neg he]
    split
    · rfl
    · split
      · rfl
      · -- fast path を抜けた `e = 0` の Put は、store の検査が退ける
        rw [hdek]
        dsimp only [encryptSecret]
        rw [putSecret_of_ne he]

/-- Delete の答えは、今の version だけで決まる。 -/
theorem delete_answer
    (hauth : authorizeGroup db ident group permWrite ident.serviceAdmin = some gid)
    (name : String) (e : UInt64) :
    (Bunker.delete db ident group name e).1 =
      if secretVersion db gid name = some e.toNat then .ok
      else .versionConflict ((secretVersion db gid name).getD 0) := by
  have hout := deleteSecret_outcome db gid e.toNat name
  unfold Bunker.delete
  rw [hauth]
  dsimp only
  split
  · next v db' hdel =>
    rw [hdel] at hout
    split at hout
    · next he => rw [if_pos he]
    · cases hout
  · next c db' hdel =>
    rw [hdel] at hout
    split at hout
    · cases hout
    · next he =>
      rw [if_neg he]
      exact congrArg Response.versionConflict (CasOutcome.conflict.inj hout)

/-- どの secret の version も `u64` の半分に収まる。 -/
def VersionsFit (db : Db) : Prop := ∀ s ∈ db.secret, s.currentVersion < 2 ^ 63

instance (db : Db) : Decidable (VersionsFit db) :=
  inferInstanceAs (Decidable (∀ s ∈ db.secret.rows, s.currentVersion < 2 ^ 63))

theorem VersionsFit.lt (h : VersionsFit db) (gid : Nat) (name : String) :
    (secretVersion db gid name).getD 0 < 2 ^ 63 := by
  unfold secretVersion
  cases hs : secretRow db gid name with
  | none => exact Nat.two_pow_pos 63
  | some s => exact h s (secretRow_eq_some.mp hs).1

/-- 認可を通った要求への応答は、対応する写像が決める。 -/
theorem handle_answers (laws : prim.Lawful) (hc : Consistent prim db) (hm : inner.Matches prim db)
    (hfit : VersionsFit db) (hsim : Simulates prim db m) {remote : String} {req : Request}
    (hpass : passes db remote req = true) :
    Answers m req (Bunker.handle prim inner amb db remote req).response := by
  unfold passes at hpass
  cases hi : identityByEndpoint db remote with
  | none =>
    rw [hi] at hpass
    cases hpass
  | some ident =>
    rw [hi] at hpass
    show Answers m req (Bunker.dispatch prim inner amb db remote req).1
    unfold Bunker.dispatch
    rw [hi]
    cases req with
    | get group name =>
      obtain ⟨gid, hauth⟩ := Option.isSome_iff_exists.mp hpass
      exact readSecret_answer laws hc.keys hm hauth
        (hsim.present group gid (groupId_of_authorizeGroup hauth) name)
    | list group =>
      obtain ⟨gid, hauth⟩ := Option.isSome_iff_exists.mp hpass
      exact list_answer hc.secrets hauth
        (hsim.present group gid (groupId_of_authorizeGroup hauth))
    | put group name value e =>
      obtain ⟨gid, hauth⟩ := Option.isSome_iff_exists.mp hpass
      have hver := (hsim.present group gid (groupId_of_authorizeGroup hauth) name).version hc.secrets
      have hput := put_answer laws hc hm hauth (hfit.lt gid name) amb value e
      rw [hver] at hput
      exact hput
    | delete group name e =>
      obtain ⟨gid, hauth⟩ := Option.isSome_iff_exists.mp hpass
      have hver := (hsim.present group gid (groupId_of_authorizeGroup hauth) name).version hc.secrets
      have hdel := delete_answer hauth name e
      rw [hver] at hdel
      exact hdel
    | _ => trivial

/-! ## 一歩と列 -/

/-- 書き込みに成功した要求は、認可を通っている。 -/
theorem passes_of_writes {remote : String} {req : Request}
    (h : Writes req (Bunker.handle prim inner amb db remote req).response) :
    passes db remote req = true := by
  change Writes req (Bunker.dispatch prim inner amb db remote req).1 at h
  unfold Bunker.dispatch at h
  unfold passes
  cases hi : identityByEndpoint db remote with
  | none =>
    rw [hi] at h
    cases req <;> exact h.elim
  | some ident =>
    rw [hi] at h
    cases req with
    | put group name value e =>
      cases hauth : authorizeGroup db ident group permWrite ident.serviceAdmin with
      | some gid => exact congrArg Option.isSome hauth
      | none =>
        dsimp only [Bunker.dispatchAs, Bunker.put] at h
        rw [hauth] at h
        exact h.elim
    | delete group name e =>
      cases hauth : authorizeGroup db ident group permWrite ident.serviceAdmin with
      | some gid => exact congrArg Option.isSome hauth
      | none =>
        dsimp only [Bunker.dispatchAs, Bunker.delete] at h
        rw [hauth] at h
        exact h.elim
    | _ => exact h.elim

theorem next_of_quiet {req : Request} {resp : Response} (h : Answers m req resp)
    (hq : ¬ Writes req resp) : next m req = m := by
  cases req with
  | put group name value e =>
    refine if_neg fun he => hq ?_
    rw [show resp = _ from h, if_pos he]
    trivial
  | delete group name e =>
    refine if_neg fun he => hq ?_
    rw [show resp = _ from h, if_pos he]
    trivial
  | _ => rfl

/-- 要求の後の database も写像を持つ。version が収まっているなら、それは参照模型の次の写像である。 -/
theorem simulates_handle (laws : prim.Lawful) (hc : Consistent prim db)
    (hm : inner.Matches prim db) (hsim : Simulates prim db m) (amb : Ambient) (remote : String)
    (req : Request) :
    ∃ m', Simulates prim (Bunker.handle prim inner amb db remote req).db m' ∧
      (VersionsFit db → (if passes db remote req then next m req else m) = m') := by
  have hs : Stable prim db (Bunker.handle prim inner amb db remote req).db :=
    .of_turn laws (turn_handle laws hc.keys.endpoints hm remote req)
  have hans := fun hfit => @handle_answers prim db inner amb m laws hc hm hfit hsim remote req
  have hpass := @passes_of_writes prim db inner amb remote req
  have hstep := @secretStep_handle prim db inner amb hc.secrets remote req
  generalize (Bunker.handle prim inner amb db remote req).response = resp at hans hpass hstep
  generalize (Bunker.handle prim inner amb db remote req).db = db' at hs hstep ⊢
  cases hstep with
  | keep same quiet =>
    refine ⟨m, hsim.same hs same, fun hfit => ?_⟩
    split
    · next hp => exact next_of_quiet (hans hfit hp) quiet
    · rfl
  | @put group name writer value e gid dv dek located expected newest unwrapped stored =>
    have hver := (hsim.present group gid located name).version hc.secrets
    have hrow := stored.current gid name
    rw [if_pos ⟨rfl, rfl⟩] at hrow
    refine ⟨Reference.set m group name (some ⟨value, e.toNat + 1⟩), hsim.set hs located stored
      (Or.inr ⟨_, value, hrow, rfl, sealed_put laws hc.keys hs newest unwrapped⟩), fun _ => ?_⟩
    rw [if_pos (hpass trivial)]
    refine if_pos ?_
    unfold current
    rw [← hver]
    exact expected
  | @delete group name e gid located expected removed =>
    have hver := (hsim.present group gid located name).version hc.secrets
    have hrow := removed.current gid name
    rw [if_pos ⟨rfl, rfl⟩] at hrow
    refine ⟨Reference.set m group name none, hsim.set hs located removed (Or.inl ⟨hrow, rfl⟩),
      fun _ => ?_⟩
    rw [if_pos (hpass trivial)]
    exact if_pos (hver.symm.trans expected)

theorem simulates_follow (laws : prim.Lawful) (hc : Consistent prim db)
    (hsim : Simulates prim db m) (op : Node.Op) (amb : Ambient) :
    ∃ m', Simulates prim (Node.step prim db op amb).2 m' ∧
      (VersionsFit db → (follow prim (db, m) (op, amb)).2 = m') := by
  have hs : Stable prim db (Node.step prim db op amb).2 := stable_step laws hc.keys op amb
  unfold follow
  dsimp only
  rcases @step_cases prim db op amb with ⟨key, remote, req, inner, rfl, hnew, hstep⟩ | ⟨hnone, hsame, -⟩
  · rw [hstep]
    exact simulates_handle laws hc (matches_of_new laws hnew).1 hsim amb remote req
  · rw [hnone]
    refine ⟨m, hsim.same hs hsame, fun _ => ?_⟩
    cases op <;> rfl

theorem simulates_init {op backup endpoint : String} {db₀ : Db}
    (h : Node.init op backup endpoint name = some db₀) : Simulates prim db₀ empty := by
  obtain ⟨m, t, ht, rfl, -⟩ := init_spec h
  refine ⟨fun _ _ _ => rfl, fun g gid hg n => ?_⟩
  exact absurd (groupId_eq_some.mp hg) Table.mem_empty

/-- どの操作の列の後でも、database は何らかの平文の写像を暗号化したものである。 -/
theorem simulates_some (laws : prim.Lawful) {op backup endpoint : String} {db₀ : Db}
    (hlen : endpoint.length = 64) (hinit : Node.init op backup endpoint name = some db₀)
    (ops : List (Node.Op × Ambient)) : ∃ m, Simulates prim (Node.exec prim db₀ ops) m := by
  have h : Consistent prim (Node.exec prim db₀ ops) ∧ ∃ m, Simulates prim (Node.exec prim db₀ ops) m := by
    refine Node.exec_induction prim (motive := fun db => Consistent prim db ∧ ∃ m, Simulates prim db m)
      ⟨consistent_init hlen hinit, empty, simulates_init hinit⟩ ?_ ops
    rintro db op amb ⟨hc, m, hsim⟩
    obtain ⟨m', hsim', -⟩ := simulates_follow laws hc hsim op amb
    exact ⟨consistent_step laws db op amb hc, m', hsim'⟩
  exact h.2

/-- 操作の列のどこでも version が収まっているなら、その写像は参照模型のものである。 -/
theorem simulates_exec (laws : prim.Lawful) {op backup endpoint : String} {db₀ : Db}
    (hlen : endpoint.length = 64) (hinit : Node.init op backup endpoint name = some db₀)
    (ops : List (Node.Op × Ambient))
    (hfit : ∀ before, before <+: ops → VersionsFit (Node.exec prim db₀ before)) :
    Simulates prim (Node.exec prim db₀ ops) (reference prim db₀ ops) := by
  induction ops using List.reverseRecOn with
  | nil => exact simulates_init hinit
  | append_singleton xs x ih =>
    have hxs := List.prefix_append xs [x]
    have hsim := ih fun before hb => hfit before (hb.trans hxs)
    have hc := consistent_exec laws (consistent_init hlen hinit) xs
    obtain ⟨m', hsim', hm'⟩ := simulates_follow laws hc hsim x.1 x.2
    rw [Node.exec_snoc, reference_snoc, hm' (hfit xs hxs)]
    exact hsim'

/--
**平文の版つき写像への詳細化。** `init` からどの操作の列を経た後でも、認可を通った
Get、List、Put、Delete への応答は、平文の写像を同じ要求で動かした参照模型の答えである。
-/
theorem refines_plain_map (laws : prim.Lawful) {op backup endpoint name : String} {db₀ : Db}
    (hlen : endpoint.length = 64) (hinit : Node.init op backup endpoint name = some db₀)
    (ops : List (Node.Op × Ambient))
    (hfit : ∀ before, before <+: ops → VersionsFit (Node.exec prim db₀ before))
    {key : AgeIdentity} {remote : String} {req : Request} {amb : Ambient} {resp : Response}
    (hpass : passes (Node.exec prim db₀ ops) remote req = true)
    (hresp : (Node.step prim (Node.exec prim db₀ ops) (.handle key remote req) amb).1 = some resp) :
    Answers (reference prim db₀ ops) req resp := by
  have hc : Consistent prim (Node.exec prim db₀ ops) :=
    consistent_exec laws (consistent_init hlen hinit) ops
  rcases @step_cases prim (Node.exec prim db₀ ops) (.handle key remote req) amb with
    ⟨_, _, _, inner, hop, hnew, hstep⟩ | ⟨hnone, -⟩
  · cases hop
    rw [hstep] at hresp
    rw [← Option.some.inj hresp]
    exact handle_answers laws hc (matches_of_new laws hnew).1 (hfit ops List.prefix_rfl)
      (simulates_exec laws hlen hinit ops hfit) hpass
  · rw [hnone] at hresp
    cases hresp

/-- 書いてから鍵を回す。 -/
def sampleRotated : List (Node.Op × Ambient) :=
  sampleCalls [('a', .createGroup "g"), ('a', .put "g" "n" [7] 0), ('a', .rotateDek "g")]

theorem refines_plain_map_sample :
    Answers (reference plain sampleDb sampleRotated) (.get "g" "n") (.secret [7] 1) := by
  have hfit : ∀ before, before <+: sampleRotated → VersionsFit (Node.exec plain sampleDb before) := by
    intro before hb
    have htake : ∀ k : Fin 4, VersionsFit (Node.exec plain sampleDb (sampleRotated.take k)) := by
      decide
    rw [List.prefix_iff_eq_take.mp hb]
    exact htake ⟨before.length, Nat.lt_succ_of_le hb.length_le⟩
  have hresp : (Node.step plain (Node.exec plain sampleDb sampleRotated)
      (.handle ⟨"o"⟩ (samplePeer 'a') (.get "g" "n")) (sampleAmbient 9)).1 =
        some (.secret [7] 1) := by decide
  exact refines_plain_map plain_lawful (by decide) init_sampleDb _ hfit (by decide) hresp

end SecretBunker
