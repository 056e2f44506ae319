import Mathlib.Data.List.Induction
import SecretBunker.Crypto.Plain
import SecretBunker.Store.Keys
import SecretBunker.Store.Migrate
import SecretBunker.Server.Handler

/-!
# database の role

一つの database file は authoritative か replica のどちらかである。`meta` の `role` がそれを
記し、`Bunker::new` と replica の起動がそれを見る。ここでは `role` に触れうる操作の列を扱う。

* `kept_step` — 印の付いた database を `init` が上書きしないかぎり、印は変わらない
* `not_kept_of_unsafe` — `Store::init` は `role` を見ないので、replica の mirror を上書きできる
-/

namespace SecretBunker

open Relational Store

namespace Replica

/-- replica の起動。印が無ければ付け、あれば照らし合わせる。 -/
def checkRole (db : Db) (authoritative : EndpointId) (ownHex : String) : Except String Db :=
  match metaGet db "role" with
  | none =>
    .ok (metaSetMany db [("role", "replica"), ("authoritative", authoritative.text),
      ("replica_endpoint_id", ownHex)])
  | some role =>
    if role = "replica" then
      let stored := (metaGet db "authoritative").getD ""
      if stored ≠ authoritative.text then
        .error ("replica database syncs from authoritative node " ++ stored ++ ", not "
          ++ authoritative.text)
      else
        let stored := (metaGet db "replica_endpoint_id").getD ""
        if stored ≠ ownHex then
          .error ("replica database belongs to endpoint " ++ stored ++ ", not " ++ ownHex)
        else .ok db
    else if role = "authoritative" then
      .error "this is an authoritative database, not a replica mirror — refusing to sync over it"
    else .error ("database has unknown role '" ++ role ++ "'")

end Replica

/-! ## 操作の列 -/

/-- database file に対する操作。 -/
inductive RoleOp where
  | reopen
  | init (operationalPubkey backupPubkey adminEndpointId adminName : String)
  | checkRole (authoritative : EndpointId) (ownHex : String)
  | serve (opIdentity : AgeIdentity)
  /-- `meta` に触れない操作。 -/
  | other (run : Db → Db) (keeps : ∀ db, (run db).metadata = db.metadata)

namespace RoleOp

/-- 操作一つ。失敗したときは false で、database は元のままである。 -/
def step (prim : Primitives) (db : Db) : RoleOp → Bool × Db
  | reopen => (true, openDb db)
  | init op backup endpoint name =>
    match Store.init db op backup endpoint name with
    | some db' => (true, db')
    | none => (false, db)
  | checkRole authoritative ownHex =>
    match Replica.checkRole db authoritative ownHex with
    | .ok db' => (true, db')
    | .error _ => (false, db)
  | serve opIdentity => ((Bunker.new prim db opIdentity).isSome, db)
  | other run _ => (true, run db)

/-- 開いた database file に操作を順に当てる。 -/
def exec (prim : Primitives) (file : DbFile) (ops : List RoleOp) : Db :=
  ops.foldl (fun db op => (op.step prim db).2) (openFile file)

/--
`Store::init` が別の role を上書きしない状態。

印が無いか authoritative である、または `init` 自身が失敗する：初期化済みであるか、
管理者の endpoint か名前がもう登録されている。
-/
def InitSafe (db : Db) (adminEndpointId adminName : String) : Prop :=
  metaGet db "role" = none ∨ metaGet db "role" = some "authoritative" ∨ isInitialized db = true ∨
    ∃ i ∈ db.identity, i.endpointId = adminEndpointId ∨ i.name = adminName

/-- `init` は `InitSafe` なところでだけ行う。 -/
def Safe (db : Db) : RoleOp → Prop
  | init _ _ endpoint name => InitSafe db endpoint name
  | _ => True

/-- 印の無い初期化済みの database も、authoritative のものである。 -/
def IsAuthoritative (db : Db) : Prop :=
  metaGet db "role" = some "authoritative" ∨ metaGet db "role" = none ∧ isInitialized db = true

/-- 一方の role の database を、もう一方として使おうとする操作。 -/
def Crosses (db : Db) : RoleOp → Prop
  | init _ _ _ _ => metaGet db "role" = some "replica"
  | serve _ => metaGet db "role" = some "replica"
  | checkRole _ _ => IsAuthoritative db
  | _ => False

end RoleOp

/-- file の `meta` の値。 -/
def DbFile.metaGet (file : DbFile) (key : String) : Option String :=
  (file.metadata.find? (·.key == key)).map (·.value)

/-- 一度付いた印は、後でも同じである。引数は `meta` の引き方で与える。 -/
structure Kept (before after : String → Option String) : Prop where
  role : ∀ r, before "role" = some r → after "role" = some r
  authoritative : before "role" = some "replica" → after "authoritative" = before "authoritative"
  endpoint : before "role" = some "replica" →
    after "replica_endpoint_id" = before "replica_endpoint_id"

namespace Kept

variable {m₁ m₂ m₃ : String → Option String}

theorem refl (m : String → Option String) : Kept m m := ⟨fun _ h => h, fun _ => rfl, fun _ => rfl⟩

theorem trans (h₁ : Kept m₁ m₂) (h₂ : Kept m₂ m₃) : Kept m₁ m₃ where
  role r hr := h₂.role r (h₁.role r hr)
  authoritative hr := (h₂.authoritative (h₁.role _ hr)).trans (h₁.authoritative hr)
  endpoint hr := (h₂.endpoint (h₁.role _ hr)).trans (h₁.endpoint hr)

theorem of_unstamped (h : m₁ "role" = none) : Kept m₁ m₂ := by
  have hn : ∀ r, m₁ "role" ≠ some r := by simp [h]
  exact ⟨fun r hr => absurd hr (hn r), fun hr => absurd hr (hn _), fun hr => absurd hr (hn _)⟩

end Kept

/-! ## 一つの操作 -/

section Step

variable {prim : Primitives} {db db' : Db}

/-- 初期化済みなら、印が付いている。開くたびに `migrate` が確かめる。 -/
def Stamped (db : Db) : Prop := isInitialized db = true → metaGet db "role" ≠ none

theorem metaGet_openDb (db : Db) (key : String) (hk : key ≠ "role") (hs : key ≠ "schema_version") :
    metaGet (openDb db) key = metaGet db key := by
  unfold openDb
  rw [metaGet_insertMetaOrIgnore hs]
  split
  · exact metaGet_insertMetaOrIgnore hk
  · rfl

theorem role_openDb (db : Db) : metaGet (openDb db) "role" =
    if isInitialized db then some ((metaGet db "role").getD "authoritative")
    else metaGet db "role" := by
  unfold openDb
  rw [metaGet_insertMetaOrIgnore (by decide)]
  split
  · exact metaGet_insertMetaOrIgnore_self
  · rfl

theorem kept_openDb (db : Db) : Kept (metaGet db) (metaGet (openDb db)) where
  role r hr := by
    rw [role_openDb, hr]
    split <;> rfl
  authoritative _ := metaGet_openDb db _ (by decide) (by decide)
  endpoint _ := metaGet_openDb db _ (by decide) (by decide)

theorem stamped_openDb (db : Db) : Stamped (openDb db) := by
  intro hinit
  have hbefore : isInitialized db = true := by
    rwa [isInitialized, metaGet_openDb db _ (by decide) (by decide)] at hinit
  rw [role_openDb, if_pos hbefore]
  exact Option.some_ne_none _

/-- v1 から移すと、`schema_version` のほかの鍵はそのまま残る。 -/
theorem metaGet_migrate (l : LegacyDb) (key : String) : metaGet l.migrate key =
    if key = "schema_version" then some "2" else (DbFile.legacy l).metaGet key := by
  show metaGet ((Db.empty.withMeta l.metadata).upsertMeta "schema_version" "2") key = _
  rw [metaGet_upsertMeta]
  rfl

theorem kept_openFile (file : DbFile) : Kept file.metaGet (metaGet (openFile file)) := by
  cases file with
  | current db => exact kept_openDb db
  | legacy db =>
    have hmigrate : Kept (DbFile.legacy db).metaGet (metaGet db.migrate) :=
      ⟨fun r hr => (metaGet_migrate db _).trans hr, fun _ => metaGet_migrate db _,
        fun _ => metaGet_migrate db _⟩
    exact hmigrate.trans (kept_openDb db.migrate)

theorem stamped_openFile (file : DbFile) : Stamped (openFile file) := by
  cases file with
  | current db => exact stamped_openDb db
  | legacy db => exact stamped_openDb db.migrate

variable {op backup endpoint name : String}

/-- `init` が成功したとき、初期化の前であり、role は authoritative になっている。 -/
theorem role_init (h : Store.init db op backup endpoint name = some db') :
    isInitialized db = false ∧ (∀ i ∈ db.identity, i.endpointId ≠ endpoint ∧ i.name ≠ name) ∧
      metaGet db' "role" = some "authoritative" := by
  unfold Store.init at h
  split at h
  · cases h
  · next hinit =>
    obtain ⟨i, t, ht, rfl, rfl, hfree, rfl, -⟩ := addIdentity_spec h
    refine ⟨by simpa using hinit, fun j hj => (hfree j hj).2, ?_⟩
    show metaGet (metaSetMany db _) "role" = _
    simp only [metaSetMany, List.foldl_cons, List.foldl_nil]
    rw [metaGet_upsertMeta, if_pos rfl]

/-- `init` を止めるのは、初期化済みであることと管理者の衝突だけである。 -/
theorem init_isSome (hinit : isInitialized db = false)
    (hfree : ∀ i ∈ db.identity, i.endpointId ≠ endpoint ∧ i.name ≠ name) :
    ∃ db', Store.init db op backup endpoint name = some db' := by
  unfold Store.init
  rw [hinit]
  exact addIdentity_isSome hfree

/-- 成功した起動は、印を付けたか、すでに在る印と合っていた。 -/
theorem checkRole_cases {authoritative : EndpointId} {ownHex : String}
    (h : Replica.checkRole db authoritative ownHex = .ok db') :
    metaGet db "role" = none ∧ metaGet db' "role" = some "replica" ∨
      metaGet db "role" = some "replica" ∧ db' = db := by
  unfold Replica.checkRole at h
  split at h
  · next hr =>
    cases h
    refine Or.inl ⟨hr, ?_⟩
    simp [metaSetMany, metaGet_upsertMeta]
  · next role hr =>
    split at h
    · next hrole =>
      subst hrole
      refine Or.inr ⟨hr, ?_⟩
      dsimp only at h
      split at h
      · cases h
      · split at h
        · cases h
        · exact (Except.ok.inj h).symm
    · split at h <;> cases h

/-- 安全な操作は、付いた印を変えない。 -/
theorem kept_step {o : RoleOp} (hs : o.Safe db) : Kept (metaGet db) (metaGet (o.step prim db).2) := by
  cases o with
  | reopen => exact kept_openDb db
  | serve _ => exact .refl _
  | other run keeps =>
    have hm : metaGet (run db) = metaGet db := by
      funext key
      rw [metaGet, metaGet, keeps]
    rw [RoleOp.step, hm]
    exact .refl _
  | checkRole authoritative ownHex =>
    rw [RoleOp.step]
    split
    · next db' h =>
      rcases checkRole_cases h with ⟨hr, -⟩ | ⟨-, rfl⟩
      · exact .of_unstamped hr
      · exact .refl _
    · exact .refl _
  | init op backup endpoint name =>
    rw [RoleOp.step]
    split
    · next db' h =>
      obtain ⟨hinit, hfree, hrole⟩ := role_init h
      rcases hs with hr | hr | hi | ⟨i, hi, hc⟩
      · exact .of_unstamped hr
      · refine ⟨fun r h => hrole.trans (hr.symm.trans h), fun h => ?_, fun h => ?_⟩
        · exact absurd (hr.symm.trans h) (by decide)
        · exact absurd (hr.symm.trans h) (by decide)
      · exact absurd (hinit.symm.trans hi) (by decide)
      · exact absurd hc (not_or.mpr (hfree i hi))
    · exact .refl _

/-- 上書きできる状態での `init` は成功し、role を書き換える。 -/
theorem not_kept_of_unsafe {o : RoleOp} (hs : ¬ o.Safe db) :
    ¬ Kept (metaGet db) (metaGet (o.step prim db).2) := by
  cases o with
  | init op backup endpoint name =>
    simp only [RoleOp.Safe, RoleOp.InitSafe, not_or, not_exists, not_and] at hs
    obtain ⟨hnone, hauth, hinit, hfree⟩ := hs
    obtain ⟨db', h⟩ : ∃ db', Store.init db op backup endpoint name = some db' :=
      init_isSome (by simpa using hinit) hfree
    intro hk
    rw [RoleOp.step, h] at hk
    obtain ⟨r, hr⟩ := Option.ne_none_iff_exists'.mp hnone
    have hsame : metaGet db' "role" = some r := hk.role r hr
    exact hauth (hr.trans (hsame.symm.trans (role_init h).2.2))
  | reopen => exact absurd trivial hs
  | serve _ => exact absurd trivial hs
  | checkRole _ _ => exact absurd trivial hs
  | other _ _ => exact absurd trivial hs

/-- role を跨ぐ操作は失敗し、database は変わらない。 -/
theorem step_crosses {o : RoleOp} (hst : Stamped db) (hs : o.Safe db) (hc : o.Crosses db) :
    o.step prim db = (false, db) := by
  cases o with
  | reopen => exact hc.elim
  | other _ _ => exact hc.elim
  | serve _ =>
    have hr : metaGet db "role" = some "replica" := hc
    rw [RoleOp.step, Bunker.new, if_pos hr]
    rfl
  | checkRole authoritative ownHex =>
    rw [RoleOp.step]
    split
    · next db' h =>
      have hr : metaGet db "role" = some "authoritative" := hc.resolve_right fun hu => hst hu.2 hu.1
      rcases checkRole_cases h with ⟨hn, -⟩ | ⟨hrep, -⟩
      · exact absurd (hr.symm.trans hn) (by decide)
      · exact absurd (hr.symm.trans hrep) (by decide)
    · rfl
  | init op backup endpoint name =>
    have hr : metaGet db "role" = some "replica" := hc
    rw [RoleOp.step]
    split
    · next db' h =>
      obtain ⟨hinit, hfree, -⟩ := role_init h
      rcases hs with hn | ha | hi | ⟨i, hi, hd⟩
      · exact absurd (hr.symm.trans hn) (by decide)
      · exact absurd (hr.symm.trans ha) (by decide)
      · exact absurd (hinit.symm.trans hi) (by decide)
      · exact absurd hd (not_or.mpr (hfree i hi))
    · rfl

/-- どの操作も `Stamped` を保つ。 -/
theorem stamped_step (o : RoleOp) (hst : Stamped db) : Stamped (o.step prim db).2 := by
  cases o with
  | reopen => exact stamped_openDb db
  | serve _ => exact hst
  | other run keeps =>
    rw [RoleOp.step, Stamped, isInitialized, metaGet, metaGet, keeps]
    exact hst
  | checkRole authoritative ownHex =>
    rw [RoleOp.step]
    split
    · next db' h =>
      rcases checkRole_cases h with ⟨-, hr⟩ | ⟨-, rfl⟩
      · exact fun _ hn => absurd (hr.symm.trans hn) (by decide)
      · exact hst
    · exact hst
  | init op backup endpoint name =>
    rw [RoleOp.step]
    split
    · next db' h => exact fun _ hn => absurd ((role_init h).2.2.symm.trans hn) (by decide)
    · exact hst

end Step

/-! ## 操作の列の全体 -/

section Run

variable {prim : Primitives} {file : DbFile}

theorem exec_append (pre mid : List RoleOp) : RoleOp.exec prim file (pre ++ mid) =
    mid.foldl (fun db o => (o.step prim db).2) (RoleOp.exec prim file pre) :=
  List.foldl_append

theorem stamped_exec (ops : List RoleOp) : Stamped (RoleOp.exec prim file ops) := by
  induction ops using List.reverseRecOn with
  | nil => exact stamped_openFile file
  | append_singleton ops o ih =>
    rw [exec_append]
    exact stamped_step o ih

theorem kept_exec (pre mid : List RoleOp)
    (hs : ∀ m o m', mid = m ++ o :: m' → o.Safe (RoleOp.exec prim file (pre ++ m))) :
    Kept (metaGet (RoleOp.exec prim file pre)) (metaGet (RoleOp.exec prim file (pre ++ mid))) := by
  induction mid using List.reverseRecOn with
  | nil =>
    rw [List.append_nil]
    exact .refl _
  | append_singleton mid o ih =>
    have hkept := ih fun m o' m' h => hs m o' (m' ++ [o]) (by rw [h, List.append_assoc]; rfl)
    rw [← List.append_assoc, exec_append]
    exact hkept.trans (kept_step (hs mid o [] rfl))

/--
**database の role は変わらない。ただし `init` が replica の mirror に当たらないかぎり。**

開いた file に操作を順に当てる。`role` が一度付けば、どの後の状態でも同じであり、replica なら
記された authoritative と endpoint も同じである。role を跨ぐ操作は失敗し、何も変えない。
このことが成り立つのは、`init` のどれもが `InitSafe` な状態で呼ばれたとき、そのときに限る。
-/
theorem role_fixed_iff (prim : Primitives) (file : DbFile) (ops : List RoleOp) :
    Kept file.metaGet (metaGet (openFile file)) ∧
    ((∀ pre mid post, ops = pre ++ mid ++ post →
        Kept (metaGet (RoleOp.exec prim file pre)) (metaGet (RoleOp.exec prim file (pre ++ mid)))) ∧
      (∀ pre o post, ops = pre ++ o :: post → o.Crosses (RoleOp.exec prim file pre) →
        o.step prim (RoleOp.exec prim file pre) = (false, RoleOp.exec prim file pre)) ↔
      ∀ pre o post, ops = pre ++ o :: post → o.Safe (RoleOp.exec prim file pre)) := by
  refine ⟨kept_openFile file, ?_, ?_⟩
  · rintro ⟨hkept, -⟩ pre o post rfl
    by_contra hunsafe
    have hstep := hkept pre [o] post (by rw [List.append_assoc]; rfl)
    rw [exec_append] at hstep
    exact not_kept_of_unsafe hunsafe hstep
  · intro hs
    refine ⟨fun pre mid post h => kept_exec pre mid fun m o m' hm => ?_,
      fun pre o post h hc => step_crosses (stamped_exec pre) (hs pre o post h) hc⟩
    exact hs (pre ++ m) o (m' ++ post) (by rw [h, hm]; simp)

/-- replica として始めた mirror に `init` を当てると、authoritative になる。 -/
theorem init_over_replica :
    metaGet (RoleOp.exec plain (.current Db.empty) [.checkRole ⟨"upstream"⟩ "own"]) "role"
        = some "replica" ∧
      metaGet (RoleOp.exec plain (.current Db.empty)
        [.checkRole ⟨"upstream"⟩ "own", .init "age1op" "age1backup" "admin" "root"]) "role"
        = some "authoritative" := by
  decide

/-- 初期化された database は、replica として起動しようとしても変わらない。 -/
theorem role_fixed_iff_sample :
    let ops : List RoleOp := [.init "age1op" "age1backup" "admin" "root", .checkRole ⟨"upstream"⟩ "own"]
    Kept (metaGet (RoleOp.exec plain (.current Db.empty) []))
        (metaGet (RoleOp.exec plain (.current Db.empty) ops)) ∧
      (RoleOp.checkRole ⟨"upstream"⟩ "own").step plain
          (RoleOp.exec plain (.current Db.empty) (ops.take 1)) =
        (false, RoleOp.exec plain (.current Db.empty) (ops.take 1)) := by
  intro ops
  have hs : ∀ pre o post, ops = pre ++ o :: post →
      o.Safe (RoleOp.exec plain (.current Db.empty) pre) := by
    intro pre o post h
    rcases pre with _ | ⟨a, _ | ⟨b, _ | ⟨c, pre⟩⟩⟩
    · obtain ⟨rfl, -⟩ := List.cons.inj h
      exact Or.inl (by decide)
    · obtain ⟨rfl, -⟩ := List.cons.inj (List.cons.inj h).2
      exact trivial
    · cases (List.cons.inj (List.cons.inj h).2).2
    · cases (List.cons.inj (List.cons.inj h).2).2
  obtain ⟨hkept, hcross⟩ := (role_fixed_iff plain (.current Db.empty) ops).2.mpr hs
  exact ⟨hkept [] ops [] (by simp), hcross (ops.take 1) _ [] rfl (Or.inl (by decide))⟩

end Run

end SecretBunker
