import SecretBunker.Server.Frame

/-!
# 要求の、secret の側の効果

secret を動かすのは成功した Put と Delete だけで、動くのは一つの `(group, name)` だけである。
-/

namespace SecretBunker

open Relational Store

variable {prim : Primitives} {db db' : Db} {inner : Inner} {amb : Ambient} {ident : Identity}

theorem SameSecrets.secretDataCurrent (h : SameSecrets db db') (gid : Nat) (name : String) :
    secretDataCurrent db' gid name = secretDataCurrent db gid name := by
  unfold Store.secretDataCurrent secretRow currentRow
  rw [h.1, h.2]

theorem SameSecrets.complete (h : SameSecrets db db') (hc : Complete db) : Complete db' := by
  obtain ⟨hs, hv⟩ := h
  refine ⟨?_, ?_, ?_⟩
  · rw [hs, hv]; exact hc.current
  · rw [hs, hv]; exact hc.bounded
  · rw [hs]; exact hc.positive

/-! ## 要求の効果 -/

/-- 成功した Put と Delete。 -/
def Writes : Request → Response → Prop
  | .put .., .version _ => True
  | .delete .., .ok => True
  | _, _ => False

/-- 要求一つの間の、secret の動き。 -/
inductive SecretStep (prim : Primitives) (inner : Inner) (amb : Ambient) (db db' : Db) :
    Request → Response → Prop
  | keep {req : Request} {resp : Response} (same : SameSecrets db db') (quiet : ¬ Writes req resp) :
      SecretStep prim inner amb db db' req resp
  | put {group name writer : String} {value : Bytes} {e : UInt64} {gid dv : Nat} {dek : Dek}
      (located : groupId db group = some gid)
      (expected : (secretVersion db gid name).getD 0 = e.toNat)
      (newest : currentDekVersion db gid = some dv)
      (unwrapped : Bunker.unwrapOperational prim inner.opIdentity db gid dv = some dek)
      (stored : SecretSet db db' gid name (some ⟨e.toNat + 1, dv, amb.nonce.bytes,
        prim.aeadEncrypt dek amb.nonce (secretAad group name (e.toNat + 1) dv) value, amb.now,
        writer⟩)) :
      SecretStep prim inner amb db db' (.put group name value e) (.version (e.toNat + 1))
  | delete {group name : String} {e : UInt64} {gid : Nat}
      (located : groupId db group = some gid)
      (expected : secretVersion db gid name = some e.toNat)
      (removed : SecretSet db db' gid name none) :
      SecretStep prim inner amb db db' (.delete group name e) .ok

variable {req : Request} {resp : Response}

theorem not_writes_of_quiet (h : req.isQuery = true ∨ auditOutcome resp ≠ "ok") :
    ¬ Writes req resp := by
  intro hw
  unfold Writes at hw
  split at hw
  · rcases h with h | h
    · cases h
    · exact h rfl
  · rcases h with h | h
    · cases h
    · exact h rfl
  · exact hw

/-- どの要求も、secret の一歩である。 -/
theorem secretStep_effect (hc : Complete db) (h : Effect prim inner amb db ident req resp db') :
    SecretStep prim inner amb db db' req resp := by
  have hleaves := h.leaves
  cases h with
  | none quiet => exact .keep ⟨rfl, rfl⟩ (not_writes_of_quiet quiet)
  | put auth version unwrapped stored =>
    obtain ⟨rfl, hcur, hset⟩ := putSecret_applied hc stored
    exact .put (groupId_of_authorizeGroup auth) hcur version unwrapped hset
  | delete auth removed =>
    obtain ⟨hcur, hset⟩ := deleteSecret_applied hc removed
    exact .delete (groupId_of_authorizeGroup auth) hcur hset
  | createGroup | addIdentity | removeIdentity | setServiceAdmin | gainRead | loseRead | keepRead
  | rotateDek => exact .keep (hleaves.secrets rfl) id

theorem SecretStep.audit {log : List AuditRow} (h : SecretStep prim inner amb db db' req resp) :
    SecretStep prim inner amb db (db'.withAudit log) req resp := by
  cases h with
  | keep same quiet => exact .keep same quiet
  | put located expected newest unwrapped stored =>
    exact .put located expected newest unwrapped ⟨⟨stored.complete.1, stored.complete.2,
      stored.complete.3⟩, stored.current⟩
  | delete located expected removed =>
    exact .delete located expected ⟨⟨removed.complete.1, removed.complete.2, removed.complete.3⟩,
      removed.current⟩

/-- audit を足しても、secret の一歩である。 -/
theorem secretStep_handle (hc : Complete db) (remote : String) (req : Request) :
    SecretStep prim inner amb db (Bunker.handle prim inner amb db remote req).db req
      (Bunker.handle prim inner amb db remote req).response := by
  refine SecretStep.audit ?_
  show SecretStep prim inner amb db (Bunker.dispatch prim inner amb db remote req).2 req
    (Bunker.dispatch prim inner amb db remote req).1
  rcases @dispatch_cases prim inner amb db remote req with
    ⟨-, h⟩ | ⟨ident, -, h⟩
  · rw [h]
    exact .keep ⟨rfl, rfl⟩ (not_writes_of_quiet (Or.inr (show "denied" ≠ "ok" by decide)))
  · exact secretStep_effect hc h

theorem SecretStep.complete (hc : Complete db) (h : SecretStep prim inner amb db db' req resp) :
    Complete db' := by
  cases h with
  | keep same _ => exact same.complete hc
  | put _ _ _ _ stored => exact stored.complete
  | delete _ _ removed => exact removed.complete

/-! ## 操作の列で保たれること -/

/-- 権威 node の database の不変条件。 -/
structure Consistent (prim : Primitives) (db : Db) : Prop where
  keys : KeyWrap prim db
  secrets : Complete db

theorem complete_init {op backup endpoint name : String} {db₀ : Db}
    (h : Node.init op backup endpoint name = some db₀) : Complete db₀ := by
  obtain ⟨m, t, ht, rfl, -⟩ := init_spec h
  exact ⟨complete_empty.current, complete_empty.bounded, complete_empty.positive⟩

theorem consistent_init {op backup endpoint name : String} {db₀ : Db} (hlen : endpoint.length = 64)
    (h : Node.init op backup endpoint name = some db₀) : Consistent prim db₀ :=
  ⟨keyWrap_init hlen h, complete_init h⟩

theorem consistent_handle (laws : prim.Lawful) (hc : Consistent prim db)
    (hm : inner.Matches prim db) (remote : String) (req : Request) :
    Consistent prim (Bunker.handle prim inner amb db remote req).db :=
  ⟨hc.keys.turn laws (turn_handle laws hc.keys.endpoints hm remote req),
    (secretStep_handle hc.secrets remote req).complete hc.secrets⟩

theorem complete_step (db : Db) (op : Node.Op) (amb : Ambient) (hc : Complete db) :
    Complete (Node.step prim db op amb).2 := by
  rcases @step_cases prim db op amb with ⟨_, remote, req, inner, -, -, h⟩ | ⟨-, hsame, -⟩
  · rw [h]
    exact (secretStep_handle hc remote req).complete hc
  · exact hsame.complete hc

/-- どの実行も `Complete` を保つ。 -/
theorem complete_exec (hc : Complete db) (ops : List (Node.Op × Ambient)) :
    Complete (Node.exec prim db ops) :=
  Node.exec_induction prim hc complete_step ops

theorem consistent_step (laws : prim.Lawful) (db : Db) (op : Node.Op) (amb : Ambient)
    (hc : Consistent prim db) : Consistent prim (Node.step prim db op amb).2 :=
  ⟨keyWrap_step laws db op amb hc.keys, complete_step db op amb hc.secrets⟩

/-- どの実行も `Consistent` を保つ。 -/
theorem consistent_exec (laws : prim.Lawful) (hc : Consistent prim db)
    (ops : List (Node.Op × Ambient)) : Consistent prim (Node.exec prim db ops) :=
  Node.exec_induction prim hc (consistent_step laws) ops

end SecretBunker
