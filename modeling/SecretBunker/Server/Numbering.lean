import SecretBunker.Server.Secrets
import SecretBunker.Store.Current

/-!
# version の番号

権威 node の version の行は、成功した Put が一つずつ足し、成功した Delete がまとめて消す。ほかの操作は
secret の二つの表に触れない。だから、どの操作の列の後でも、secret の version の行は 1 から現在までの番号を
一つずつ持つ。mirror では、反映がそのたびに secret ごと置き換えるので、行は現在の一つだけである。
-/

namespace SecretBunker

open Relational Store

variable {prim : Primitives} {db db' : Db} {inner : Inner} {amb : Ambient} {ident : Identity}

/-! ## 行の一歩 -/

/-- 一歩の間の、version の行の動き。 -/
inductive RowStep (prim : Primitives) (db db' : Db) : Prop
  | keep (same : SameSecrets db db')
  | put {group name writer : String} {value : Bytes} {gid e dv sid : Nat} {dek : Dek} {nonce : Nonce}
      {now : Int} (located : groupId db group = some gid)
      (before : ((holding db gid name).map (·.1.currentVersion)).getD 0 = e)
      (after : ∀ g n, holding db' g n =
        if g = gid ∧ n = name then
          some (⟨sid, gid, name, e + 1⟩, held db gid name ++ [⟨sid, e + 1, dv, nonce.bytes,
            prim.aeadEncrypt dek nonce (secretAad group name (e + 1) dv) value, now, writer⟩])
        else holding db g n)
  | delete {name : String} {gid : Nat}
      (after : ∀ g n, holding db' g n = if g = gid ∧ n = name then none else holding db g n)

theorem RowStep.audit {log : List AuditRow} (h : RowStep prim db db') :
    RowStep prim db (db'.withAudit log) := by
  cases h with
  | keep same => exact .keep same
  | put located before after =>
    exact .put located before fun g n => (holding_congr rfl rfl g n).trans (after g n)
  | delete after => exact .delete fun g n => (holding_congr rfl rfl g n).trans (after g n)

theorem rowStep_effect (hc : Complete db) {req : Request} {resp : Response}
    (h : Effect prim inner amb db ident req resp db') : RowStep prim db db' := by
  cases secretStep_effect hc h with
  | keep same => exact .keep same
  | put =>
    cases h with
    | none => exact .keep ⟨rfl, rfl⟩
    | put auth _ _ stored =>
      obtain ⟨-, hbefore, sid, hafter⟩ := holding_putSecret stored
      exact .put (groupId_of_authorizeGroup auth) hbefore hafter
  | delete =>
    cases h with
    | none => exact .keep ⟨rfl, rfl⟩
    | delete _ removed => exact .delete (holding_deleteSecret removed)

theorem rowStep_handle (hc : Complete db) (remote : String) (req : Request) :
    RowStep prim db (Bunker.handle prim inner amb db remote req).db := by
  refine RowStep.audit ?_
  show RowStep prim db (Bunker.dispatch prim inner amb db remote req).2
  rcases @dispatch_cases prim inner amb db remote req with ⟨-, h⟩ | ⟨ident, -, h⟩
  · rw [h]
    exact .keep ⟨rfl, rfl⟩
  · exact rowStep_effect hc h

theorem rowStep_step (hc : Complete db) (op : Node.Op) (amb : Ambient) :
    RowStep prim db (Node.step prim db op amb).2 := by
  rcases @step_cases prim db op amb with ⟨_, remote, req, inner, -, -, h⟩ | ⟨-, hsame, -⟩
  · rw [h]
    exact rowStep_handle hc remote req
  · exact .keep hsame

/-! ## 番号 -/

theorem Store.Numbered.holding (h : Numbered db) {g : Nat} {n : String} {s : SecretRow}
    {vs : List VersionRow} (hh : holding db g n = some (s, vs)) :
    1 ≤ s.currentVersion ∧ vs.map (·.version) = List.range' 1 s.currentVersion := by
  obtain ⟨s', hs', he⟩ := Option.map_eq_some_iff.mp hh
  cases he
  exact h s (secretRow_eq_some.mp hs').1

/-- これまでに持つ行は、1 から今の番号までである。 -/
theorem Store.Numbered.held (h : Numbered db) {gid e : Nat} {name : String}
    (he : ((Store.holding db gid name).map (·.1.currentVersion)).getD 0 = e) :
    (held db gid name).map (·.version) = List.range' 1 e := by
  unfold Store.held
  cases hh : Store.holding db gid name with
  | none =>
    rw [hh] at he
    subst he
    rfl
  | some x =>
    rw [hh] at he
    subst he
    exact (h.holding hh).2

/-- 行の一歩は、番号の付き方を保つ。 -/
theorem Store.Numbered.rowStep (h : Numbered db) (hs : RowStep prim db db') : Numbered db' := by
  intro s hm
  have hrows := holding_of_mem hm
  cases hs with
  | keep same =>
    rw [holding_congr same.1 same.2] at hrows
    exact h.holding hrows
  | put located before after =>
    rw [after] at hrows
    split at hrows
    · obtain ⟨rfl, hvs⟩ := Prod.mk.inj (Option.some.inj hrows)
      refine ⟨Nat.succ_pos _, ?_⟩
      rw [versionRows, ← hvs, List.map_append, h.held before, List.range'_1_concat, Nat.add_comm 1]
      rfl
    · exact h.holding hrows
  | delete after =>
    rw [after] at hrows
    split at hrows
    · cases hrows
    · exact h.holding hrows

theorem numbered_exec {op backup endpoint name : String} {db₀ : Db}
    (h : Node.init op backup endpoint name = some db₀) (ops : List (Node.Op × Ambient)) :
    Numbered (Node.exec prim db₀ ops) := by
  have hstart : Complete db₀ ∧ Numbered db₀ := by
    refine ⟨complete_init h, ?_⟩
    obtain ⟨m, t, ht, rfl, -⟩ := init_spec h
    exact fun s hs => absurd hs Table.mem_empty
  refine (Node.exec_induction prim (motive := fun db => Complete db ∧ Numbered db) hstart ?_ ops).2
  exact fun db op amb hi => ⟨complete_step db op amb hi.1, hi.2.rowStep (rowStep_step hi.1 op amb)⟩

/-- **どの secret も、ちょうど現在の行を持つ。** 権威 node のどの状態でも version の行は 1 から現在まで
であり、mirror のどの状態でも現在の一つだけである。だから `list_secrets`、`secret_entries`、
`secret_current`、`secret_data_current` は、ある名前とその version について一致する。 -/
theorem exactly_current_rows (prim : Primitives) {op backup endpoint name : String} {db₀ mirror₀ : Db}
    (hinit : Node.init op backup endpoint name = some db₀) (hempty : ∀ s, s ∉ mirror₀.secret) :
    (∀ ops, Numbered (Node.exec prim db₀ ops) ∧ QueriesAgree (Node.exec prim db₀ ops)) ∧
    ∀ ops, SoleCurrent (MirrorOp.exec mirror₀ ops) ∧ QueriesAgree (MirrorOp.exec mirror₀ ops) := by
  refine ⟨fun ops => ?_, fun ops => ?_⟩
  · have h := @numbered_exec prim _ _ _ _ _ hinit ops
    exact ⟨h, h.queriesAgree⟩
  · have hstart : SoleCurrent mirror₀ := fun s hs => absurd hs (hempty s)
    exact ⟨hstart.exec ops, (hstart.exec ops).queriesAgree⟩

/-- 二度書いた secret と、取り寄せた secret。 -/
theorem exactly_current_rows_sample :
    listSecrets (Node.exec plain sampleDb (sampleCalls [('a', .createGroup "g"),
        ('a', .put "g" "n" [1] 0), ('a', .put "g" "n" [2] 1)])) 1 = [("n", 2)] ∧
      Numbered (Node.exec plain sampleDb (sampleCalls [('a', .createGroup "g"),
        ('a', .put "g" "n" [1] 0), ('a', .put "g" "n" [2] 1)])) ∧
      listSecrets (MirrorOp.exec .empty [.apply "r" oneListed [fetchedOne [0]]]) 1 = [("db", 1)] ∧
      SoleCurrent (MirrorOp.exec .empty [.apply "r" oneListed [fetchedOne [0]]]) := by
  have h := @exactly_current_rows plain _ _ _ _ _ .empty init_sampleDb fun s => Table.mem_empty
  exact ⟨by decide +kernel, (h.1 _).1, by decide +kernel, (h.2 _).1⟩

end SecretBunker
