import SecretBunker.Server.Announce
import SecretBunker.Server.Noninterference

/-!
# 結託しても権限は増えない

service admin でも group の admin でもない peer が何人集まり、どの順に何を要求しても、その group の ACL も
DEK も wrap も、identity の表も変わらない。誰も WRITE を持たなければ、secret も変わらない。

集まった peer の権限は run の始めにだけ仮定する。途中で互いに許可を与え合えるのは、自分が admin である
別の group の中だけなので、始めの仮定は最後まで保たれる。
-/

namespace SecretBunker

open Relational Store

variable {prim : Primitives} {inner : Inner} {amb : Ambient} {db db' db'' : Db} {ident : Identity}
  {gid : Nat}

/-- 暗黙の権限なしに通った認可は、求めた bit を持っている。 -/
theorem hasBit_of_authorized {group : String} {needed : UInt8}
    (hbit : (needed != 0) = true) (h : authorizeGroup db ident group needed false = some gid) :
    hasBit (perms db ident.id gid) needed = true := by
  unfold authorizeGroup at h
  obtain ⟨gid', -, h⟩ := Option.bind_eq_some_iff.mp h
  rw [if_neg Bool.false_ne_true] at h
  split at h
  · next hperm =>
    cases h
    rwa [hasBit, hperm]
  · cases h

/-! ## 一つの要求 -/

/-- group の ACL、DEK、wrap が前と同じ。 -/
structure KeysKept (db db' : Db) (gid : Nat) : Prop where
  acl : ∀ e, e ∈ aclEntriesFull db' gid ↔ e ∈ aclEntriesFull db gid
  deks : ∀ v, ⟨gid, v⟩ ∈ db'.groupDek ↔ ⟨gid, v⟩ ∈ db.groupDek
  wraps : ∀ w, w.groupId = gid → (w ∈ db'.dekWrap ↔ w ∈ db.dekWrap)

namespace KeysKept

theorem refl (db : Db) (gid : Nat) : KeysKept db db gid :=
  ⟨fun _ => Iff.rfl, fun _ => Iff.rfl, fun _ _ => Iff.rfl⟩

theorem trans (h : KeysKept db db' gid) (h' : KeysKept db' db'' gid) : KeysKept db db'' gid :=
  ⟨fun e => (h'.acl e).trans (h.acl e), fun v => (h'.deks v).trans (h.deks v),
    fun w hw => (h'.wraps w hw).trans (h.wraps w hw)⟩

/-- identity の表も同じなら、登録された identity の許可も同じである。 -/
theorem hasBit_perms (h : KeysKept db db' gid) (hid : db'.identity = db.identity) {i : Identity}
    (hi : i ∈ db.identity) (bit : UInt8) :
    hasBit (perms db' i.id gid) bit = hasBit (perms db i.id gid) bit := by
  have hforward : ∀ {d d' : Db}, i ∈ d.identity → d'.identity = d.identity →
      (∀ e, e ∈ aclEntriesFull d gid → e ∈ aclEntriesFull d' gid) →
      hasBit (perms d i.id gid) bit = true → hasBit (perms d' i.id gid) bit = true := by
    intro d d' hi hid hacl hb
    obtain ⟨⟨_, _, p⟩, ha, rfl, rfl, hp⟩ := Store.hasBit_perms.mp hb
    obtain ⟨j, hj, hname, -, hrow⟩ := mem_aclEntriesFull.mp
      (hacl (i.name, i.endpointId, p) (mem_aclEntriesFull.mpr ⟨i, hi, rfl, rfl, ha⟩))
    have hji : j = i := Table.eq_of_conflict (hid ▸ hj) hi (Or.inr (Or.inr hname))
    exact Store.hasBit_perms.mpr ⟨_, hrow, congrArg Identity.id hji, rfl, hp⟩
  rw [Bool.eq_iff_iff]
  exact ⟨hforward (hid ▸ hi) hid.symm fun e => (h.acl e).mp, hforward hi hid fun e => (h.acl e).mpr⟩

end KeysKept

theorem Untouched.keys (h : Untouched db db' gid) : KeysKept db db' gid := ⟨h.acl, h.deks, h.wraps⟩

theorem Untouched.trans (h : Untouched db db' gid) (h' : Untouched db' db'' gid) :
    Untouched db db'' gid :=
  ⟨(h.keys.trans h'.keys).acl, (h.keys.trans h'.keys).deks, (h.keys.trans h'.keys).wraps,
    fun n => (h'.secrets n).trans (h.secrets n)⟩

section Step

variable {req : Request} {resp : Response}

/-- 許可の無い identity の要求が通るのは、別の group である。 -/
theorem ne_of_authorized {group : String} {needed : UInt8} {gid' : Nat}
    (hadmin : ident.serviceAdmin = false) (hbit : (needed != 0) = true)
    (hperm : hasBit (perms db ident.id gid) needed = false)
    (h : authorizeGroup db ident group needed ident.serviceAdmin = some gid') : gid ≠ gid' := by
  rintro rfl
  rw [hadmin] at h
  exact Bool.false_ne_true (hperm.symm.trans (hasBit_of_authorized hbit h))

/-- secret の書き込みは、どの group の鍵にも触れない。 -/
theorem keysKept_withSecrets {t : Table SecretRow} {u : Table VersionRow} {hg hv} :
    KeysKept db (db.withSecrets t u hg hv) gid :=
  ⟨fun _ => Iff.rfl, fun _ => Iff.rfl, fun _ _ => Iff.rfl⟩

/-- **admin でない identity の要求は、group の鍵と ACL を動かさない。** -/
theorem keysKept_effect (hadmin : ident.serviceAdmin = false)
    (hperm : hasBit (perms db ident.id gid) permAdmin = false)
    (h : Effect prim inner amb db ident req resp db') : KeysKept db db' gid := by
  cases h with
  | none _ => exact .refl db gid
  | put _ _ _ stored =>
    obtain ⟨_, _, _, _, rfl⟩ := putSecret_only stored
    exact keysKept_withSecrets
  | delete _ removed =>
    obtain ⟨_, _, _, _, rfl⟩ := deleteSecret_only removed
    exact keysKept_withSecrets
  | createGroup admin | addIdentity admin | removeIdentity admin | setServiceAdmin admin =>
    rw [hadmin] at admin
    cases admin
  | gainRead auth _ _ _ wrapped granted =>
    exact (untouched_grant wrapped granted (ne_of_authorized hadmin (by decide) hperm auth)).keys
  | loseRead auth _ _ _ _ revoked =>
    have hunt := untouched_revoke revoked (ne_of_authorized hadmin (by decide) hperm auth)
    exact (hunt.auditRotations _ _ _).keys
  | keepRead auth _ _ set =>
    exact (untouched_aclSet (aclSet_setPerms set)
      (ne_of_authorized hadmin (by decide) hperm auth)).keys
  | rotateDek auth _ added =>
    exact (untouched_addDek added (ne_of_authorized hadmin (by decide) hperm auth)).keys

/-- WRITE も無ければ、secret にも触れない。 -/
theorem untouched_effect (hc : Complete db) (hadmin : ident.serviceAdmin = false)
    (hperm : hasBit (perms db ident.id gid) permAdmin = false)
    (hwrite : hasBit (perms db ident.id gid) permWrite = false)
    (h : Effect prim inner amb db ident req resp db') : Untouched db db' gid := by
  have hkeys := keysKept_effect hadmin hperm h
  refine ⟨hkeys.acl, hkeys.deks, hkeys.wraps, ?_⟩
  have hleaves := h.leaves
  cases h with
  | put auth _ _ stored =>
    obtain ⟨-, -, hset⟩ := putSecret_applied hc stored
    exact slot_of_set hc hset (ne_of_authorized hadmin (by decide) hwrite auth)
  | delete auth removed =>
    obtain ⟨-, hset⟩ := deleteSecret_applied hc removed
    exact slot_of_set hc hset (ne_of_authorized hadmin (by decide) hwrite auth)
  | none _ => exact fun _ => rfl
  | createGroup admin | addIdentity admin | removeIdentity admin | setServiceAdmin admin =>
    rw [hadmin] at admin
    cases admin
  | gainRead | loseRead | keepRead | rotateDek => exact slot_of_same (hleaves.secrets rfl) gid

end Step

/-! ## 要求の列 -/

/-- 認証された peer の要求を順に処理した後の database。 -/
def Bunker.serve (prim : Primitives) (inner : Inner) (db : Db)
    (calls : List (String × Request × Ambient)) : Db :=
  calls.foldl (fun db c => (Bunker.handle prim inner c.2.2 db c.1 c.2.1).db) db

/-- `peers` に属する identity は、service admin でも group の admin でもない。 -/
def Adminless (peers : String → Prop) (db : Db) (gid : Nat) : Prop :=
  ∀ i ∈ db.identity, peers i.endpointId →
    i.serviceAdmin = false ∧ hasBit (perms db i.id gid) permAdmin = false

/-- `peers` に属する identity は、group に WRITE を持たない。 -/
def Writeless (peers : String → Prop) (db : Db) (gid : Nat) : Prop :=
  ∀ i ∈ db.identity, peers i.endpointId → hasBit (perms db i.id gid) permWrite = false

/-- run の始めから、identity の表と group の鍵が動いていない。 -/
structure Confined (peers : String → Prop) (db₀ db : Db) (gid : Nat) : Prop where
  complete : Complete db
  identity : db.identity = db₀.identity
  keys : KeysKept db₀ db gid
  secrets : Writeless peers db₀ gid → Untouched db₀ db gid

theorem Confined.audit {peers : String → Prop} {db₀ : Db} (h : Confined peers db₀ db gid)
    (log : List AuditRow) : Confined peers db₀ (db.withAudit log) gid :=
  ⟨⟨h.complete.1, h.complete.2, h.complete.3⟩, h.identity, ⟨h.keys.acl, h.keys.deks, h.keys.wraps⟩,
    fun hw => (h.secrets hw).audit log⟩

/-- admin でない者の要求は `Confined` を保つ。 -/
theorem Confined.handle {peers : String → Prop} {db₀ : Db} (hpeers : Adminless peers db₀ gid)
    (h : Confined peers db₀ db gid) {remote : String} (hremote : peers remote) (req : Request) :
    Confined peers db₀ (Bunker.handle prim inner amb db remote req).db gid := by
  suffices hd : Confined peers db₀ (Bunker.dispatch prim inner amb db remote req).2 gid from
    hd.audit _
  rcases @dispatch_cases prim inner amb db remote req with ⟨-, hnone⟩ | ⟨ident, hident, heffect⟩
  · rw [hnone]
    exact h
  · obtain ⟨hi, rfl⟩ := identityByEndpoint_eq_some.mp hident
    have hi₀ : ident ∈ db₀.identity := h.identity ▸ hi
    obtain ⟨hadmin, hperm⟩ := hpeers ident hi₀ hremote
    have hperm' : hasBit (perms db ident.id gid) permAdmin = false :=
      (h.keys.hasBit_perms h.identity hi₀ permAdmin).trans hperm
    refine ⟨(secretStep_effect h.complete heffect).complete h.complete,
      (identity_of_effect hadmin heffect).trans h.identity,
      h.keys.trans (keysKept_effect hadmin hperm' heffect), fun hw => ?_⟩
    have hwrite : hasBit (perms db ident.id gid) permWrite = false :=
      (h.keys.hasBit_perms h.identity hi₀ permWrite).trans (hw ident hi₀ hremote)
    exact (h.secrets hw).trans (untouched_effect h.complete hadmin hperm' hwrite heffect)

/-- **結託しても権限は増えない。** 到達できるどの database からでも、service admin でも group の admin でも
ない peer たちが何を何度要求しても、identity の表と、group の ACL、DEK、wrap は変わらない。始めに誰も
WRITE を持たなければ、secret も変わらない。 -/
theorem collusion_gains_nothing {op backup endpoint name : String} {db₀ : Db}
    (hinit : Node.init op backup endpoint name = some db₀) (ops : List (Node.Op × Ambient))
    (peers : String → Prop) (gid : Nat)
    (hpeers : Adminless peers (Node.exec prim db₀ ops) gid)
    (calls : List (String × Request × Ambient)) (hcalls : ∀ c ∈ calls, peers c.1) :
    let before := Node.exec prim db₀ ops
    let after := Bunker.serve prim inner before calls
    after.identity = before.identity ∧ KeysKept before after gid ∧
      (Writeless peers before gid → Untouched before after gid) := by
  have hc : Complete (Node.exec prim db₀ ops) := complete_exec (complete_init hinit) ops
  have hrun : Confined peers (Node.exec prim db₀ ops)
      (Bunker.serve prim inner (Node.exec prim db₀ ops) calls) gid := by
    refine List.foldlRecOn (motive := fun db => Confined peers _ db gid) calls _
      ⟨hc, rfl, .refl _ _, fun _ => .refl _ _⟩ fun db h c hm => ?_
    exact h.handle hpeers (hcalls c hm) c.2.1
  exact ⟨hrun.identity, hrun.keys, hrun.secrets⟩

theorem collusion_gains_nothing_sample :
    let before := Node.exec plain sampleDb sampleGranted
    let after := Bunker.serve plain sampleInner before
      [(samplePeer 'b', .grant "g" "bob" 7, sampleAmbient 9)]
    groupId before "g" = some 1 ∧ KeysKept before after 1 ∧ Untouched before after 1 := by
  have hpeers : ∀ i ∈ (Node.exec plain sampleDb sampleGranted).identity.rows,
      i.endpointId = samplePeer 'b' → i.serviceAdmin = false ∧
        hasBit (perms (Node.exec plain sampleDb sampleGranted) i.id 1) permAdmin = false := by
    decide +kernel
  have hwrite : ∀ i ∈ (Node.exec plain sampleDb sampleGranted).identity.rows,
      i.endpointId = samplePeer 'b' →
        hasBit (perms (Node.exec plain sampleDb sampleGranted) i.id 1) permWrite = false := by
    decide +kernel
  obtain ⟨-, hkeys, hsecrets⟩ := @collusion_gains_nothing plain sampleInner _ _ _ _ _ init_sampleDb
    sampleGranted (· = samplePeer 'b') 1 hpeers
    [(samplePeer 'b', .grant "g" "bob" 7, sampleAmbient 9)] (by simp)
  exact ⟨by decide +kernel, hkeys, hsecrets hwrite⟩

end SecretBunker
