import SecretBunker.Server.Agreement
import SecretBunker.Server.Secrets

/-!
# client protocol の非干渉

service admin でない呼び手の応答は、呼び手が ACL の行を持つ group の中身だけで決まる。
READ を持たない group については、secret の値にも依らない。
二つの database の上の二つの実行を、要求を一つずつ並べて比べる。
-/

namespace SecretBunker

open Relational Store

variable {prim : Primitives} {inner : Inner} {amb : Ambient} {c : Nat}
  {P blind : Nat → Nat → Prop} {db₁ db₂ : Db} {ident : Identity} {g₁ g₂ : Nat}

namespace Alike

/-! ## wrap の計算 -/

section Wraps

variable (h : Alike c P blind db₁ db₂)
include h

theorem unwrapOperational_eq (hp : P g₁ g₂) (op : AgeIdentity) (v : Nat) :
    Bunker.unwrapOperational prim op db₁ g₁ v = Bunker.unwrapOperational prim op db₂ g₂ v := by
  unfold Bunker.unwrapOperational
  rw [h.dekWrap_eq hp]

theorem wrapSetForGroup_eq (hp : P g₁ g₂) (op backup : Recipient) (seed : String → Bytes) (dek : Dek)
    (exclude : Option String) :
    Bunker.wrapSetForGroup prim op backup seed db₁ g₁ dek exclude =
      Bunker.wrapSetForGroup prim op backup seed db₂ g₂ dek exclude := by
  unfold Bunker.wrapSetForGroup
  rw [h.readGrantedIdentities_eq hp]

theorem wrapsForNewReader_eq (hp : P g₁ g₂) (op : AgeIdentity) (seed : Nat → String → Bytes)
    (e : String) :
    Bunker.wrapsForNewReader prim op seed db₁ g₁ e = Bunker.wrapsForNewReader prim op seed db₂ g₂ e := by
  unfold Bunker.wrapsForNewReader
  simp only [h.dekVersions_eq hp, h.unwrapOperational_eq hp]

theorem auditRotations (now : Int) (e : String) (groups : List String) :
    Alike c P blind (Bunker.auditRotations prim db₁ now e groups)
      (Bunker.auditRotations prim db₂ now e groups) := by
  unfold Bunker.auditRotations
  induction groups generalizing db₁ db₂ with
  | nil => exact h
  | cons g rest ih => exact ih (h.audit _ _)

end Wraps

end Alike

/-! ## 要求 -/

/-- 応答が同じで、後の database も呼び手から見て同じ。 -/
def SameOutcome (c : Nat) (P blind : Nat → Nat → Prop) (x y : Response × Db) : Prop :=
  x.1 = y.1 ∧ Alike c P blind x.2 y.2

theorem hasBit_of_authorizeGroup {db : Db} {group : String} {gid : Nat}
    (h : authorizeGroup db ident group permRead false = some gid) :
    hasBit (perms db ident.id gid) permRead = true := by
  unfold authorizeGroup at h
  obtain ⟨gid', -, h⟩ := Option.bind_eq_some_iff.mp h
  rw [if_neg (by decide)] at h
  split at h
  · next hperm =>
    cases h
    unfold hasBit
    rw [hperm]
    rfl
  · cases h

/-- 同じ行の compare-and-set は、同じ応答になる。 -/
theorem putSecret_alike (h : Alike c P blind db₁ db₂) (hp : P g₁ g₂) (hc₁ : Complete db₁)
    (hc₂ : Complete db₂) (name : String) (e dv : Nat) (nonce ct : Bytes) (now : Int) (by_ : String) :
    SameOutcome c P blind
      (match putSecret db₁ g₁ name e dv nonce ct now by_ with
        | some (.applied newVersion, db) => (.version newVersion, db)
        | some (.conflict current, db) => (.versionConflict current, db)
        | none => (internalError, db₁))
      (match putSecret db₂ g₂ name e dv nonce ct now by_ with
        | some (.applied newVersion, db) => (.version newVersion, db)
        | some (.conflict current, db) => (.versionConflict current, db)
        | none => (internalError, db₂)) := by
  obtain ⟨hg₁, hg₂⟩ := h.group_exists hp
  have hver := h.secretVersion_eq hc₁ hc₂ hp name
  by_cases he : (secretVersion db₂ g₂ name).getD 0 = e
  · obtain ⟨db₁', h₁⟩ := @putSecret_succeeds db₁ g₁ dv name by_ nonce ct now hc₁ hg₁
    obtain ⟨db₂', h₂⟩ := @putSecret_succeeds db₂ g₂ dv name by_ nonce ct now hc₂ hg₂
    rw [hver, he] at h₁
    rw [he] at h₂
    rw [h₁, h₂]
    exact ⟨rfl, h.secretSet hp (putSecret_applied hc₁ h₁).2.2 (putSecret_applied hc₂ h₂).2.2
      (putSecret_only h₁) (putSecret_only h₂)⟩
  · rw [putSecret_of_ne he, putSecret_of_ne (hver ▸ he), hver]
    exact ⟨rfl, h⟩

section Requests

variable (h : Alike c P blind db₁ db₂) (hid : ident.id = c) (hadmin : ident.serviceAdmin = false)
include h hid hadmin

/-- 認可は、どちらの store でも拒むか、どちらでも通る。 -/
theorem authorizeGroup_alike {needed : UInt8} (hneeded : needed ≠ 0) (group : String) :
    authorizeGroup db₁ ident group needed ident.serviceAdmin = none ∧
        authorizeGroup db₂ ident group needed ident.serviceAdmin = none ∨
      ∃ g₁ g₂, authorizeGroup db₁ ident group needed ident.serviceAdmin = some g₁ ∧
        authorizeGroup db₂ ident group needed ident.serviceAdmin = some g₂ ∧ P g₁ g₂ := by
  rw [hadmin]
  exact rel_cases (h.authorizeGroup_rel hid hneeded group)

theorem readSecret_alike
    (hunread : ∀ {g₁ g₂}, P g₁ g₂ → blind g₁ g₂ → hasBit (perms db₁ c g₁) permRead = false)
    (group name r : String) (key : AgeIdentity) :
    readSecret prim db₁ ident group name r key ident.serviceAdmin =
      readSecret prim db₂ ident group name r key ident.serviceAdmin := by
  unfold readSecret
  rcases authorizeGroup_alike h hid hadmin (show permRead ≠ 0 by decide) group with
    ⟨h₁, h₂⟩ | ⟨g₁, g₂, h₁, h₂, hp⟩ <;> rw [h₁, h₂]
  -- 通ったのだから READ があり、この組の行は隠されていない
  have hb : ¬ blind g₁ g₂ := by
    intro hb
    have hread := hasBit_of_authorizeGroup (hadmin ▸ h₁)
    rw [hid, hunread hp hb] at hread
    cases hread
  unfold openSecret
  simp only [secretCurrent_eq, h.rows hp hb, h.dekWrap_eq hp]

theorem list_alike (hc₁ : Complete db₁) (hc₂ : Complete db₂) (group : String) :
    list db₁ ident group ident.serviceAdmin = list db₂ ident group ident.serviceAdmin := by
  unfold list
  rcases authorizeGroup_alike h hid hadmin (show permRead ≠ 0 by decide) group with
    ⟨h₁, h₂⟩ | ⟨g₁, g₂, h₁, h₂, hp⟩ <;> rw [h₁, h₂]
  exact congrArg Response.names (h.listSecrets_eq hc₁ hc₂ hp)

theorem groupAcl_alike (group : String) :
    groupAcl db₁ ident group ident.serviceAdmin = groupAcl db₂ ident group ident.serviceAdmin := by
  unfold groupAcl
  rcases authorizeGroup_alike h hid hadmin (show permAdmin ≠ 0 by decide) group with
    ⟨h₁, h₂⟩ | ⟨g₁, g₂, h₁, h₂, hp⟩ <;> rw [h₁, h₂]
  exact congrArg Response.acl (h.groupAclEntries_eq hp)

theorem listIdentityNames_alike (group : String) :
    listIdentityNames db₁ ident group ident.serviceAdmin =
      listIdentityNames db₂ ident group ident.serviceAdmin := by
  unfold listIdentityNames
  rcases authorizeGroup_alike h hid hadmin (show permAdmin ≠ 0 by decide) group with
    ⟨h₁, h₂⟩ | ⟨g₁, g₂, h₁, h₂, hp⟩ <;> rw [h₁, h₂]
  rw [h.listIdentities_eq]

theorem listGroups_alike : Bunker.listGroups db₁ ident = Bunker.listGroups db₂ ident := by
  unfold Bunker.listGroups listGroupsExplicit
  rw [hadmin, hid, h.groupsForIdentity_eq]
  rfl

/-- Put は二つの store で同じに終わる。 -/
theorem put_alike (hc₁ : Complete db₁) (hc₂ : Complete db₂) (group name : String) (value : Bytes)
    (e : UInt64) :
    SameOutcome c P blind (Bunker.put prim inner amb db₁ ident group name value e)
      (Bunker.put prim inner amb db₂ ident group name value e) := by
  unfold Bunker.put
  rcases authorizeGroup_alike h hid hadmin (show permWrite ≠ 0 by decide) group with
    ⟨h₁, h₂⟩ | ⟨g₁, g₂, h₁, h₂, hp⟩ <;> rw [h₁, h₂]
  · exact ⟨rfl, h⟩
  dsimp only
  rw [h.currentDekVersion_eq hp]
  cases currentDekVersion db₂ g₂ with
  | none => exact ⟨rfl, h⟩
  | some dv =>
    dsimp only
    rw [h.dekWrap_eq hp, h.secretVersion_eq hc₁ hc₂ hp]
    cases Store.dekWrap db₂ g₂ dv recipientOperational with
    | none => exact ⟨rfl, h⟩
    | some wrapped =>
      dsimp only
      split
      · exact ⟨rfl, h⟩
      · split
        · exact ⟨rfl, h⟩
        · cases unwrapDek prim wrapped inner.opIdentity with
          | none => exact ⟨rfl, h⟩
          | some dek => exact putSecret_alike h hp hc₁ hc₂ _ _ _ _ _ _ _

theorem delete_alike (hc₁ : Complete db₁) (hc₂ : Complete db₂) (group name : String) (e : UInt64) :
    SameOutcome c P blind (Bunker.delete db₁ ident group name e)
      (Bunker.delete db₂ ident group name e) := by
  unfold Bunker.delete
  rcases authorizeGroup_alike h hid hadmin (show permWrite ≠ 0 by decide) group with
    ⟨h₁, h₂⟩ | ⟨g₁, g₂, h₁, h₂, hp⟩ <;> rw [h₁, h₂]
  · exact ⟨rfl, h⟩
  have hout : (deleteSecret db₁ g₁ name e.toNat).1 = (deleteSecret db₂ g₂ name e.toNat).1 := by
    rw [deleteSecret_outcome, deleteSecret_outcome, h.secretVersion_eq hc₁ hc₂ hp]
  dsimp only
  cases h₁ : deleteSecret db₁ g₁ name e.toNat with
  | mk o₁ db₁' =>
    cases h₂ : deleteSecret db₂ g₂ name e.toNat with
    | mk o₂ db₂' =>
      rw [h₁, h₂] at hout
      obtain rfl : o₁ = o₂ := hout
      cases o₁ with
      | applied v =>
        exact ⟨rfl, h.secretSet hp (deleteSecret_applied hc₁ h₁).2 (deleteSecret_applied hc₂ h₂).2
          (deleteSecret_only h₁) (deleteSecret_only h₂)⟩
      | conflict current =>
        rw [(deleteSecret_conflict h₁).1, (deleteSecret_conflict h₂).1]
        exact ⟨rfl, h⟩

theorem rotateDek_alike (group : String) :
    SameOutcome c P blind (Bunker.rotateDek prim inner amb db₁ ident group)
      (Bunker.rotateDek prim inner amb db₂ ident group) := by
  unfold Bunker.rotateDek
  rcases authorizeGroup_alike h hid hadmin (show permAdmin ≠ 0 by decide) group with
    ⟨h₁, h₂⟩ | ⟨g₁, g₂, h₁, h₂, hp⟩ <;> rw [h₁, h₂]
  · exact ⟨rfl, h⟩
  dsimp only
  rw [h.wrapSetForGroup_eq hp]
  cases Bunker.wrapSetForGroup prim inner.opRecipient inner.backupRecipient (amb.seed 0 0) db₂ g₂
    (amb.dek 0) none with
  | none => exact ⟨rfl, h⟩
  | some wraps =>
    dsimp only
    rcases rel_cases (h.addDek hp wraps) with ⟨h₁, h₂⟩ | ⟨_, _, h₁, h₂, hab⟩ <;> rw [h₁, h₂]
    exacts [⟨rfl, h⟩, ⟨rfl, hab⟩]

omit hid hadmin in
theorem applyGrant_alike (hp : P g₁ g₂) (group : String) (target : Identity) (p : UInt8) :
    SameOutcome c P blind (Bunker.applyGrant prim inner amb db₁ ident g₁ group target p)
      (Bunker.applyGrant prim inner amb db₂ ident g₂ group target p) := by
  unfold Bunker.applyGrant
  rw [h.perms_eq hp, h.wrapsForNewReader_eq hp, h.wrapSetForGroup_eq hp]
  split
  · split
    · exact ⟨rfl, h⟩
    · next wraps _ =>
      rcases rel_cases (h.grantWithWraps hp target.id p wraps target.endpointId) with
        ⟨h₁, h₂⟩ | ⟨_, _, h₁, h₂, hab⟩ <;> rw [h₁, h₂]
      exacts [⟨rfl, h⟩, ⟨rfl, hab⟩]
  · split
    · exact ⟨rfl, h⟩
    · next wraps _ =>
      rcases rel_cases (h.revokeReadAndRotate hp target.id p target.endpointId wraps) with
        ⟨h₁, h₂⟩ | ⟨_, _, h₁, h₂, hab⟩ <;> rw [h₁, h₂]
      exacts [⟨rfl, h⟩, ⟨rfl, hab.auditRotations _ _ _⟩]
  · rcases rel_cases (h.setPerms hp target.id p) with
      ⟨h₁, h₂⟩ | ⟨_, _, h₁, h₂, hab⟩ <;> rw [h₁, h₂]
    exacts [⟨rfl, h⟩, ⟨rfl, hab⟩]

/-- Grant は二つの store で同じに終わる。 -/
theorem grant_alike (group identity : String) (p : UInt8) :
    SameOutcome c P blind (Bunker.grant prim inner amb db₁ ident group identity p)
      (Bunker.grant prim inner amb db₂ ident group identity p) := by
  unfold Bunker.grant
  rw [h.identityByName_eq]
  rcases authorizeGroup_alike h hid hadmin (show permAdmin ≠ 0 by decide) group with
    ⟨h₁, h₂⟩ | ⟨g₁, g₂, h₁, h₂, hp⟩ <;> rw [h₁, h₂]
  · exact ⟨rfl, h⟩
  dsimp only
  split
  · exact ⟨rfl, h⟩
  · cases identityByName db₂ identity with
    | none => exact ⟨rfl, h⟩
    | some target =>
      dsimp only
      rw [h.perms_eq hp, h.adminCount_eq hp]
      split
      · exact ⟨rfl, h⟩
      · exact applyGrant_alike h hp group target p

/-- service admin でない呼び手の要求は、どれも同じ応答になり、同じ見え方を残す。 -/
theorem dispatchAs_alike (hc₁ : Complete db₁) (hc₂ : Complete db₂)
    (hunread : ∀ {g₁ g₂}, P g₁ g₂ → blind g₁ g₂ → hasBit (perms db₁ c g₁) permRead = false)
    (req : Request) :
    SameOutcome c P blind (Bunker.dispatchAs prim inner amb db₁ ident req)
      (Bunker.dispatchAs prim inner amb db₂ ident req) := by
  have hdenied : ∀ (x y : Response × Db), SameOutcome c P blind
      (if !ident.serviceAdmin then (.denied, db₁) else x)
      (if !ident.serviceAdmin then (.denied, db₂) else y) := by
    intro x y
    rw [hadmin]
    exact ⟨rfl, h⟩
  cases req with
  | get group name => exact ⟨readSecret_alike h hid hadmin hunread group name _ _, h⟩
  | put group name value e => exact put_alike h hid hadmin hc₁ hc₂ group name value e
  | delete group name e => exact delete_alike h hid hadmin hc₁ hc₂ group name e
  | list group => exact ⟨list_alike h hid hadmin hc₁ hc₂ group, h⟩
  | createGroup name => exact hdenied _ _
  | addIdentity name e admin => exact hdenied _ _
  | removeIdentity name => exact hdenied _ _
  | listIdentities =>
    refine ⟨?_, h⟩
    show Bunker.listIdentities db₁ ident = Bunker.listIdentities db₂ ident
    unfold Bunker.listIdentities
    rw [hadmin]
    rfl
  | grant group identity p => exact grant_alike h hid hadmin group identity p
  | rotateDek group => exact rotateDek_alike h hid hadmin group
  | listGroups => exact ⟨listGroups_alike h hid hadmin, h⟩
  | groupAcl group => exact ⟨groupAcl_alike h hid hadmin group, h⟩
  | listIdentityNames group => exact ⟨listIdentityNames_alike h hid hadmin group, h⟩
  | setServiceAdmin name admin => exact hdenied _ _

end Requests

/-! ## frame の列 -/

/-- service admin でない呼び手は、identity の表を変えない。 -/
theorem identity_of_effect {db db' : Db} {req : Request} {resp : Response}
    (hadmin : ident.serviceAdmin = false) (h : Effect prim inner amb db ident req resp db') :
    db'.identity = db.identity := by
  have hleaves := h.leaves
  cases h with
  | none _ => rfl
  | addIdentity admin | removeIdentity admin | setServiceAdmin admin =>
    rw [hadmin] at admin
    cases admin
  | put | delete | createGroup | gainRead | loseRead | keepRead | rotateDek =>
    exact hleaves.identity rfl

/-- 一人の peer が続けて送った frame への応答。 -/
def responses (prim : Primitives) (inner : Inner) (decode : Bytes → Option Request)
    (remote : String) (db : Db) : List (Bytes × Ambient) → List Response
  | [] => []
  | x :: rest =>
    let handled := Bunker.handleRaw prim inner x.2 db decode remote x.1
    handled.response :: responses prim inner decode remote handled.db rest

/-- frame を処理した後の database。 -/
def afterFrames (prim : Primitives) (inner : Inner) (decode : Bytes → Option Request)
    (remote : String) (db : Db) (frames : List (Bytes × Ambient)) : Db :=
  frames.foldl (fun db x => (Bunker.handleRaw prim inner x.2 db decode remote x.1).db) db

section Frames

variable {decode : Bytes → Option Request} {remote : String} {db : Db}

theorem complete_handleRaw (hc : Complete db) (frame : Bytes) :
    Complete (Bunker.handleRaw prim inner amb db decode remote frame).db := by
  unfold Bunker.handleRaw
  split
  · next req _ => exact (secretStep_handle hc remote req).complete hc
  · exact ⟨hc.current, hc.bounded, hc.positive⟩

theorem identity_handleRaw (hi : identityByEndpoint db remote = some ident)
    (hadmin : ident.serviceAdmin = false) (frame : Bytes) :
    (Bunker.handleRaw prim inner amb db decode remote frame).db.identity = db.identity := by
  unfold Bunker.handleRaw
  split
  · next req _ =>
    show (Bunker.dispatch prim inner amb db remote req).2.identity = db.identity
    unfold Bunker.dispatch
    rw [hi]
    exact identity_of_effect hadmin (effect_dispatchAs req)
  · rfl

/-- frame 一つの前後。 -/
theorem handleRaw_alike (h : Alike ident.id P blind db₁ db₂)
    (hi : identityByEndpoint db₁ remote = some ident) (hadmin : ident.serviceAdmin = false)
    (hc₁ : Complete db₁) (hc₂ : Complete db₂)
    (hunread : ∀ {g₁ g₂}, P g₁ g₂ → blind g₁ g₂ → ¬ HoldsRead db₁ remote g₁) (prim : Primitives)
    (inner : Inner) (amb : Ambient) (decode : Bytes → Option Request) (frame : Bytes) :
    (Bunker.handleRaw prim inner amb db₁ decode remote frame).response =
        (Bunker.handleRaw prim inner amb db₂ decode remote frame).response ∧
      Alike ident.id P blind (Bunker.handleRaw prim inner amb db₁ decode remote frame).db
        (Bunker.handleRaw prim inner amb db₂ decode remote frame).db := by
  have hi₂ : identityByEndpoint db₂ remote = some ident := by
    rw [← h.identityByEndpoint_eq]
    exact hi
  unfold Bunker.handleRaw
  cases decode frame with
  | none => exact ⟨rfl, h.audit _ _⟩
  | some req =>
    have hread : ∀ {g₁ g₂}, P g₁ g₂ → blind g₁ g₂ →
        hasBit (perms db₁ ident.id g₁) permRead = false := by
      intro g₁ g₂ hp hb
      rw [Bool.eq_false_iff]
      intro hbit
      obtain ⟨hm, he⟩ := identityByEndpoint_eq_some.mp hi
      exact hunread hp hb (holdsRead_iff.mpr ⟨ident, hm, he, hbit⟩)
    have hout : SameOutcome ident.id P blind (Bunker.dispatchAs prim inner amb db₁ ident req)
      (Bunker.dispatchAs prim inner amb db₂ ident req) :=
      dispatchAs_alike h rfl hadmin hc₁ hc₂ hread req
    dsimp only [Bunker.handle, Bunker.dispatch]
    rw [hi, hi₂]
    exact ⟨hout.1, hout.2.audit _ _⟩

/-- frame の列への応答。 -/
theorem responses_alike (h : Alike ident.id P blind db₁ db₂)
    (hi : identityByEndpoint db₁ remote = some ident) (hadmin : ident.serviceAdmin = false)
    (hc₁ : Complete db₁) (hc₂ : Complete db₂) (frames : List (Bytes × Ambient))
    (hunread : ∀ before frame rest, frames = before ++ frame :: rest → ∀ {g₁ g₂}, P g₁ g₂ →
      blind g₁ g₂ → ¬ HoldsRead (afterFrames prim inner decode remote db₁ before) remote g₁) :
    responses prim inner decode remote db₁ frames = responses prim inner decode remote db₂ frames := by
  induction frames generalizing db₁ db₂ with
  | nil => rfl
  | cons x rest ih =>
    obtain ⟨hresp, hdb⟩ := handleRaw_alike h hi hadmin hc₁ hc₂ (hunread [] x rest rfl) prim inner
      x.2 decode x.1
    unfold responses
    dsimp only
    rw [hresp]
    refine congrArg (_ :: ·) (ih hdb ?_ (complete_handleRaw hc₁ x.1) (complete_handleRaw hc₂ x.1) ?_)
    · unfold identityByEndpoint at hi ⊢
      rw [identity_handleRaw hi hadmin]
      exact hi
    · intro before frame rest' hrest
      exact hunread (x :: before) frame rest' (by rw [hrest]; rfl)

/-- 登録の無い endpoint の frame は、どれも拒まれる。 -/
theorem responses_unregistered (hi : identityByEndpoint db remote = none)
    (frames : List (Bytes × Ambient)) :
    responses prim inner decode remote db frames = List.replicate frames.length .denied := by
  induction frames generalizing db with
  | nil => rfl
  | cons x rest ih =>
    have hhandled : (Bunker.handleRaw prim inner x.2 db decode remote x.1).response = .denied ∧
        (Bunker.handleRaw prim inner x.2 db decode remote x.1).db.identity = db.identity := by
      unfold Bunker.handleRaw
      cases decode x.1 with
      | none => exact ⟨rfl, rfl⟩
      | some req =>
        dsimp only [Bunker.handle, Bunker.dispatch]
        rw [hi]
        exact ⟨rfl, rfl⟩
    unfold responses
    dsimp only
    rw [hhandled.1, List.length_cons, List.replicate_succ]
    refine congrArg (_ :: ·) (ih ?_)
    unfold identityByEndpoint at hi ⊢
    rw [hhandled.2]
    exact hi

end Frames

/-! ## 呼び手から見た一致 -/

/-- endpoint の identity が group に ACL の行を持つ。 -/
def HasRow (db : Db) (endpoint group : String) : Prop :=
  ∃ i ∈ db.identity, i.endpointId = endpoint ∧
    ∃ gid, groupId db group = some gid ∧ ∃ p, ⟨i.id, gid, p⟩ ∈ db.groupAcl

/-- group の中身が同じ。`hidden` なら secret は名前と version だけを比べる。 -/
structure SameGroup (hidden : Prop) (db₁ : Db) (g₁ : Nat) (db₂ : Db) (g₂ : Nat) : Prop where
  acl : ∀ iid p, ⟨iid, g₁, p⟩ ∈ db₁.groupAcl ↔ ⟨iid, g₂, p⟩ ∈ db₂.groupAcl
  deks : ∀ v, ⟨g₁, v⟩ ∈ db₁.groupDek ↔ ⟨g₂, v⟩ ∈ db₂.groupDek
  wraps : ∀ v r b, ⟨g₁, v, r, b⟩ ∈ db₁.dekWrap ↔ ⟨g₂, v, r, b⟩ ∈ db₂.dekWrap
  versions : ∀ n, (secretDataCurrent db₁ g₁ n).map (·.version) =
    (secretDataCurrent db₂ g₂ n).map (·.version)
  rows : ¬ hidden → ∀ n, secretDataCurrent db₁ g₁ n = secretDataCurrent db₂ g₂ n

/-- identity の表と、endpoint が ACL の行を持つ group の中身が同じ。ほかの group は問わない。 -/
structure Indistinguishable (endpoint : String) (hidden : String → Prop) (db₁ db₂ : Db) : Prop where
  identities : ∀ i, i ∈ db₁.identity ↔ i ∈ db₂.identity
  groups : ∀ g, HasRow db₁ endpoint g ∨ HasRow db₂ endpoint g → ∃ g₁ g₂,
    groupId db₁ g = some g₁ ∧ groupId db₂ g = some g₂ ∧ SameGroup (hidden g) db₁ g₁ db₂ g₂

/-- 見分けのつかない store は、行のある group で揃っている。 -/
theorem Indistinguishable.alike {hidden : String → Prop} {endpoint : String}
    (h : Indistinguishable endpoint hidden db₁ db₂)
    (hi : identityByEndpoint db₁ endpoint = some ident) :
    Alike ident.id
      (fun g₁ g₂ => ∃ g, groupId db₁ g = some g₁ ∧ groupId db₂ g = some g₂ ∧
        (HasRow db₁ endpoint g ∨ HasRow db₂ endpoint g))
      (fun g₁ g₂ => ∃ g, groupId db₁ g = some g₁ ∧ groupId db₂ g = some g₂ ∧ hidden g) db₁ db₂ := by
  have hsame : ∀ {g g₁ g₂}, groupId db₁ g = some g₁ → groupId db₂ g = some g₂ →
      HasRow db₁ endpoint g ∨ HasRow db₂ endpoint g → SameGroup (hidden g) db₁ g₁ db₂ g₂ := by
    intro g g₁ g₂ h₁ h₂ hrow
    obtain ⟨g₁', g₂', h₁', h₂', hs⟩ := h.groups g hrow
    rw [h₁] at h₁'
    rw [h₂] at h₂'
    cases h₁'
    cases h₂'
    exact hs
  obtain ⟨hm, he⟩ := identityByEndpoint_eq_some.mp hi
  refine ⟨⟨?_, ?_⟩, ?_, h.identities, ?_, ?_, ?_, ?_, ?_, ?_, ?_⟩
  · rintro a b a' ⟨g, h₁, h₂, -⟩ ⟨g', h₁', h₂', -⟩
    rw [groupId_inj h₂ h₂'] at h₁
    exact Option.some.inj (h₁.symm.trans h₁')
  · rintro a b b' ⟨g, h₁, h₂, -⟩ ⟨g', h₁', h₂', -⟩
    rw [groupId_inj h₁ h₁'] at h₂
    exact Option.some.inj (h₂.symm.trans h₂')
  · rintro g₁ g₂ ⟨g, h₁, h₂, -⟩
    exact ⟨g, h₁, h₂⟩
  · rintro ⟨iid, gid, p⟩ ha rfl
    obtain ⟨⟨gid', name⟩, hg, rfl⟩ := db₁.aclGroup _ ha
    have hrow : HasRow db₁ endpoint name := ⟨ident, hm, he, _, groupId_eq_some.mpr hg, p, ha⟩
    obtain ⟨g₁, g₂, h₁, h₂, -⟩ := h.groups name (Or.inl hrow)
    exact ⟨g₂, name, groupId_eq_some.mpr hg, h₂, Or.inl hrow⟩
  · rintro ⟨iid, gid, p⟩ ha rfl
    obtain ⟨⟨gid', name⟩, hg, rfl⟩ := db₂.aclGroup _ ha
    have hrow : HasRow db₂ endpoint name :=
      ⟨ident, (h.identities ident).mp hm, he, _, groupId_eq_some.mpr hg, p, ha⟩
    obtain ⟨g₁, g₂, h₁, h₂, -⟩ := h.groups name (Or.inr hrow)
    exact ⟨g₁, name, h₁, groupId_eq_some.mpr hg, Or.inr hrow⟩
  · rintro g₁ g₂ ⟨g, h₁, h₂, hrow⟩
    exact (hsame h₁ h₂ hrow).acl
  · rintro g₁ g₂ ⟨g, h₁, h₂, hrow⟩
    exact (hsame h₁ h₂ hrow).deks
  · rintro g₁ g₂ ⟨g, h₁, h₂, hrow⟩
    exact (hsame h₁ h₂ hrow).wraps
  · rintro g₁ g₂ ⟨g, h₁, h₂, hrow⟩
    exact (hsame h₁ h₂ hrow).versions
  · rintro g₁ g₂ ⟨g, h₁, h₂, hrow⟩ hb
    exact (hsame h₁ h₂ hrow).rows fun hh => hb ⟨g, h₁, h₂, hh⟩

/-! ## 値だけが違う database -/

/-- 暗号文だけを伏せた version の行。 -/
def VersionRow.withoutCiphertext (v : VersionRow) : VersionRow := { v with ciphertext := [] }

/-- 暗号文のほかはすべて同じ database。 -/
structure SameButCiphertexts (db₁ db₂ : Db) : Prop where
  identities : db₁.identity.rows = db₂.identity.rows
  groups : db₁.secretGroup.rows = db₂.secretGroup.rows
  acl : db₁.groupAcl.rows = db₂.groupAcl.rows
  deks : db₁.groupDek.rows = db₂.groupDek.rows
  wraps : db₁.dekWrap.rows = db₂.dekWrap.rows
  secrets : db₁.secret.rows = db₂.secret.rows
  versions : db₁.secretVersion.rows.map VersionRow.withoutCiphertext =
    db₂.secretVersion.rows.map VersionRow.withoutCiphertext

theorem SameButCiphertexts.version_eq (h : SameButCiphertexts db₁ db₂) (gid : Nat) (n : String) :
    (secretDataCurrent db₁ gid n).map (·.version) = (secretDataCurrent db₂ gid n).map (·.version) := by
  have hcur : ∀ (db : Db) s, (currentRow db s).map (·.version) =
      ((db.secretVersion.rows.map VersionRow.withoutCiphertext).find? fun v =>
        v.secretId == s.id && v.version == s.currentVersion).map (·.version) := by
    intro db s
    rw [List.find?_map, Option.map_map]
    rfl
  have hrow : secretRow db₁ gid n = secretRow db₂ gid n := by
    unfold secretRow Table.find?
    rw [h.secrets]
  unfold secretDataCurrent
  rw [hrow]
  cases secretRow db₂ gid n with
  | none => rfl
  | some s =>
    rw [Option.bind_some, Option.bind_some, Option.map_map, Option.map_map]
    exact (hcur db₁ s).trans (h.versions ▸ (hcur db₂ s).symm)

/-- 暗号文だけが違う二つの database は、どの group の値を隠した呼び手にも同じに見える。 -/
theorem SameButCiphertexts.indistinguishable (h : SameButCiphertexts db₁ db₂) (endpoint : String) :
    Indistinguishable endpoint (fun _ => True) db₁ db₂ := by
  have hg : ∀ g, groupId db₁ g = groupId db₂ g := by
    intro g
    unfold groupId Table.find?
    rw [h.groups]
  refine ⟨fun i => by rw [Table.mem_def, Table.mem_def, h.identities], fun g hrow => ?_⟩
  have hex : ∃ gid, groupId db₂ g = some gid := by
    rcases hrow with ⟨_, _, _, gid, hgid, _⟩ | ⟨_, _, _, gid, hgid, _⟩
    · exact ⟨gid, hg g ▸ hgid⟩
    · exact ⟨gid, hgid⟩
  obtain ⟨gid, hgid⟩ := hex
  refine ⟨gid, gid, (hg g).trans hgid, hgid, ?_, ?_, ?_, h.version_eq gid, fun hn => absurd trivial hn⟩
  · intro iid p
    rw [Table.mem_def, Table.mem_def, h.acl]
  · intro v
    rw [Table.mem_def, Table.mem_def, h.deks]
  · intro v r b
    rw [Table.mem_def, Table.mem_def, h.wraps]

/-- bob は group の ADMIN だけを持つ。secret の値は引数で変わる。 -/
def sampleSealed (value : Bytes) : List (Node.Op × Ambient) :=
  sampleCalls [('a', .createGroup "g"), ('a', .addIdentity "bob" (samplePeer 'b') false),
    ('a', .grant "g" "bob" permAdmin), ('a', .put "g" "n" value 0)]

/-- frame の先頭の byte が要求の番号である。 -/
def sampleDecode (requests : List Request) : Bytes → Option Request
  | i :: _ => requests[i.toNat]?
  | [] => none

theorem sampleSealed_same : SameButCiphertexts (Node.exec plain sampleDb (sampleSealed [1]))
    (Node.exec plain sampleDb (sampleSealed [2])) :=
  ⟨by decide, by decide, by decide, by decide, by decide, by decide, by decide⟩

/-! ## 主定理 -/

/--
**client protocol の非干渉。** `init` から到達した二つの database が、service admin でない呼び手から
見て同じなら、呼び手のどの frame の列への応答も同じである。`hidden` な group では、呼び手が READ を
持たない間の応答は secret の値にも依らない。登録の無い endpoint は、何を送っても拒まれる。
-/
theorem responses_noninterference {o₁ b₁ e₁ a₁ o₂ b₂ e₂ a₂ : String} {db₁ db₂ : Db}
    (hinit₁ : Node.init o₁ b₁ e₁ a₁ = some db₁) (hinit₂ : Node.init o₂ b₂ e₂ a₂ = some db₂)
    (ops₁ ops₂ : List (Node.Op × Ambient)) (decode : Bytes → Option Request) (endpoint : String)
    (frames : List (Bytes × Ambient)) :
    (∀ hidden, Indistinguishable endpoint hidden (Node.exec prim db₁ ops₁)
        (Node.exec prim db₂ ops₂) →
      (∀ i ∈ (Node.exec prim db₁ ops₁).identity, i.endpointId = endpoint → i.serviceAdmin = false) →
      (∀ before frame rest, frames = before ++ frame :: rest → ∀ g gid, hidden g →
        groupId (Node.exec prim db₁ ops₁) g = some gid →
          ¬ HoldsRead (afterFrames prim inner decode endpoint (Node.exec prim db₁ ops₁) before)
            endpoint gid) →
      responses prim inner decode endpoint (Node.exec prim db₁ ops₁) frames =
        responses prim inner decode endpoint (Node.exec prim db₂ ops₂) frames) ∧
    ∀ db, identityByEndpoint db endpoint = none →
      responses prim inner decode endpoint db frames = List.replicate frames.length .denied := by
  refine ⟨fun hidden hind hadmin hunread => ?_, fun db hi => responses_unregistered hi frames⟩
  have hc₁ : Complete (Node.exec prim db₁ ops₁) := complete_exec (complete_init hinit₁) ops₁
  have hc₂ : Complete (Node.exec prim db₂ ops₂) := complete_exec (complete_init hinit₂) ops₂
  generalize Node.exec prim db₁ ops₁ = s₁ at hc₁ hind hadmin hunread ⊢
  generalize Node.exec prim db₂ ops₂ = s₂ at hc₂ hind ⊢
  cases hi : identityByEndpoint s₁ endpoint with
  | none =>
    -- どちらの表にも居ないので、どちらの応答も拒否だけが並ぶ
    have hi₂ : identityByEndpoint s₂ endpoint = none := by
      rw [← hi]
      refine Option.ext fun i => ?_
      rw [identityByEndpoint_eq_some, identityByEndpoint_eq_some, hind.identities]
    rw [responses_unregistered hi, responses_unregistered hi₂]
  | some ident =>
    obtain ⟨hm, he⟩ := identityByEndpoint_eq_some.mp hi
    refine responses_alike (hind.alike hi) hi (hadmin ident hm he) hc₁ hc₂ frames ?_
    rintro before frame rest hsplit g₁ g₂ - ⟨g, hg, -, hh⟩
    exact hunread before frame rest hsplit g g₁ hh hg

/-- Get は拒まれ、ListGroups は許可だけを答える。 -/
def sampleFrames : List (Bytes × Ambient) := [([0], sampleAmbient 1), ([1], sampleAmbient 2)]

theorem responses_noninterference_sample :
    responses plain sampleInner (sampleDecode [.get "g" "n", .listGroups]) (samplePeer 'b')
        (Node.exec plain sampleDb (sampleSealed [1])) sampleFrames =
      responses plain sampleInner (sampleDecode [.get "g" "n", .listGroups]) (samplePeer 'b')
        (Node.exec plain sampleDb (sampleSealed [2])) sampleFrames := by
  refine (responses_noninterference init_sampleDb init_sampleDb (sampleSealed [1])
    (sampleSealed [2]) _ (samplePeer 'b') sampleFrames).1 (fun _ => True)
      (sampleSealed_same.indistinguishable _) (show ∀ i ∈ Table.rows _, _ by decide) ?_
  intro before frame rest hsplit g gid _ hg
  have hunread : ∀ k : Fin 2, ∀ d ∈ (Node.exec plain sampleDb (sampleSealed [1])).secretGroup.rows,
      ¬ HoldsRead (afterFrames plain sampleInner (sampleDecode [.get "g" "n", .listGroups])
        (samplePeer 'b') (Node.exec plain sampleDb (sampleSealed [1])) (sampleFrames.take k))
          (samplePeer 'b') d.id := by decide
  have hlen : before.length < 2 := by
    have := congrArg List.length hsplit
    simp only [sampleFrames, List.length_cons, List.length_nil, List.length_append] at this
    omega
  have htake : before = sampleFrames.take before.length := by rw [hsplit, List.take_left]
  rw [htake]
  exact hunread ⟨before.length, hlen⟩ _ (groupId_eq_some.mp hg)

/--
**ADMIN は自分に READ を与えて値を読める。** 呼び手は初め READ を持たないが、自分への Grant の後の
Get の応答は、隠されていた値に依る。
-/
theorem admin_reads_after_self_grant :
    SameButCiphertexts (Node.exec plain sampleDb (sampleSealed [1]))
        (Node.exec plain sampleDb (sampleSealed [2])) ∧
      Bunker.new plain (Node.exec plain sampleDb (sampleSealed [1])) ⟨"o"⟩ = some sampleInner ∧
      ¬ HoldsRead (Node.exec plain sampleDb (sampleSealed [1])) (samplePeer 'b') 1 ∧
      responses plain sampleInner
          (sampleDecode [.grant "g" "bob" (permRead ||| permAdmin), .get "g" "n"]) (samplePeer 'b')
          (Node.exec plain sampleDb (sampleSealed [1])) sampleFrames = [.ok, .secret [1] 1] ∧
      responses plain sampleInner
          (sampleDecode [.grant "g" "bob" (permRead ||| permAdmin), .get "g" "n"]) (samplePeer 'b')
          (Node.exec plain sampleDb (sampleSealed [2])) sampleFrames = [.ok, .secret [2] 1] :=
  ⟨sampleSealed_same, by decide, by decide, by decide, by decide⟩

end SecretBunker
