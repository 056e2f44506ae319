import SecretBunker.Server.Secrets

/-!
# 取り消しは以後の書き込みを守る

READ を失わせる操作は必ず DEK を回すので、いまの DEK を受け取ったことのある endpoint は
いまも READ を持っている。Put はいまの DEK でだけ暗号化する。
-/

namespace SecretBunker

open Relational Store

variable {prim : Primitives} {db db' : Db}

/-- `db` で READ を持っていた者は `db'` でも持っているか、その間に DEK が回っている。 -/
structure Forward (db db' : Db) : Prop where
  registered : ∀ d ∈ db.groupDek, d ∈ db'.groupDek
  readers : ∀ {e gid}, HoldsRead db e gid →
    HoldsRead db' e gid ∨ ∃ v, ⟨gid, v⟩ ∈ db'.groupDek ∧ ∀ u, ⟨gid, u⟩ ∈ db.groupDek → u < v

namespace Forward

theorem refl (db : Db) : Forward db db := ⟨fun _ h => h, Or.inl⟩

theorem trans {mid : Db} (h : Forward db mid) (h' : Forward mid db') : Forward db db' where
  registered := fun d hd => h'.registered d (h.registered d hd)
  readers := by
    intro e gid hr
    rcases h.readers hr with hr | ⟨v, hv, hnew⟩
    · rcases h'.readers hr with hr | ⟨v, hv, hnew⟩
      · exact Or.inl hr
      · exact Or.inr ⟨v, hv, fun u hu => hnew u (h.registered _ hu)⟩
    · exact Or.inr ⟨v, h'.registered _ hv, hnew⟩

end Forward

/-- 鍵の一歩は、version を戻さない。 -/
theorem Turn.forward (h : Turn prim db db') : Forward db db' where
  registered := fun d hd => (h.keys d.groupId).version_mono hd
  readers := by
    intro e gid hr
    cases h.keys gid with
    | keep readers _ _ => exact Or.inl ((readers e).mpr hr)
    | gain _ _ _ _ readers _ _ _ _ => exact Or.inl ((readers e).mpr (Or.inl hr))
    | rotate lost v _ _ _ _ newest versions _ _ =>
      exact Or.inr ⟨v, (versions v).mpr (Or.inr rfl), newest⟩

theorem forward_recover {amb : Ambient} {backup : AgeIdentity} {pubkey : String}
    (h : Node.recover prim amb db backup pubkey = some db') : Forward db db' := by
  obtain ⟨newOp, rewrapped, -, ⟨t, hw, rfl, -⟩, -, -⟩ := recover_spec h
  exact ⟨fun _ h => h, Or.inl⟩

/-- どの実行も、version を戻さない。 -/
theorem forward_exec (laws : prim.Lawful) (hk : KeyWrap prim db)
    (ops : List (Node.Op × Ambient)) : Forward db (Node.exec prim db ops) :=
  exec_relation laws .refl (fun _ _ _ h h' => h.trans h') (fun _ _ _ h => h.forward)
    (fun _ _ _ _ _ _ h => forward_recover h) hk ops

/-- いまの最大の version を一度でも受け取った endpoint は、いまも READ を持つ。 -/
theorem holdsRead_of_wrapped_current {earlier now : Db} (hk : KeyWrap prim earlier)
    (hf : Forward earlier now) {gid dv : Nat} (hdv : currentDekVersion now gid = some dv)
    {w : WrapRow} (hw : w ∈ earlier.dekWrap) (hg : w.groupId = gid) (hv : w.dekVersion = dv)
    (hop : w.recipient ≠ recipientOperational) (hbackup : w.recipient ≠ recipientBackup) :
    HoldsRead now w.recipient gid := by
  obtain ⟨-, hmax⟩ := currentDekVersion_eq_some.mp hdv
  have hreg : ⟨gid, dv⟩ ∈ earlier.groupDek := hg ▸ hv ▸ hk.registered w hw
  have hent : Entitled earlier gid w.recipient :=
    (hk.recipients hreg w.recipient).mp ⟨w.wrapped, hg ▸ hv ▸ hw⟩
  have hread : HoldsRead earlier w.recipient gid := (hent.resolve_left hop).resolve_left hbackup
  rcases hf.readers hread with hnow | ⟨v, hv', hnew⟩
  · exact hnow
  · exact absurd (hmax v hv') (Nat.not_le.mpr (hnew dv hreg))

/--
**取り消しの前方保護。** 成功した Put の新しい行の DEK version は、それまでのどの時点でも、
いま READ を持たない endpoint に包まれたことがない。
-/
theorem put_never_under_revoked (laws : prim.Lawful) {op backup endpoint admin : String} {db₀ : Db}
    (hlen : endpoint.length = 64) (hinit : Node.init op backup endpoint admin = some db₀)
    (before since : List (Node.Op × Ambient)) {key : AgeIdentity} {remote group name : String}
    {value : Bytes} {e : UInt64} {amb : Ambient} {n : Nat} {after : Db}
    (hput : Node.step prim (Node.exec prim db₀ (before ++ since))
      (.handle key remote (.put group name value e)) amb = (some (.version n), after)) :
    ∃ gid sv, groupId (Node.exec prim db₀ (before ++ since)) group = some gid ∧
      secretCurrent after gid name = some sv ∧ sv.version = n ∧
      ∀ w ∈ (Node.exec prim db₀ before).dekWrap, w.groupId = gid → w.dekVersion = sv.dekVersion →
        w.recipient ≠ recipientOperational → w.recipient ≠ recipientBackup →
          HoldsRead (Node.exec prim db₀ (before ++ since)) w.recipient gid := by
  have hc₀ : Consistent prim (Node.exec prim db₀ before) :=
    consistent_exec laws (consistent_init hlen hinit) before
  have hf : Forward (Node.exec prim db₀ before) (Node.exec prim db₀ (before ++ since)) := by
    rw [Node.exec_append]
    exact forward_exec laws hc₀.keys since
  have hc : Consistent prim (Node.exec prim db₀ (before ++ since)) :=
    consistent_exec laws (consistent_init hlen hinit) _
  generalize Node.exec prim db₀ (before ++ since) = now at hput hf hc ⊢
  unfold Node.step at hput
  dsimp only at hput
  split at hput
  · cases (Prod.mk.inj hput).1
  · next inner hnew =>
    obtain ⟨hresp, rfl⟩ := Prod.mk.inj hput
    have hstep := @secretStep_handle prim now inner amb hc.secrets remote (.put group name value e)
    rw [Option.some.inj hresp] at hstep
    cases hstep with
    | keep _ quiet => exact absurd trivial quiet
    | @put _ _ writer _ _ gid dv dek located _ newest _ stored =>
      refine ⟨gid, ⟨e.toNat + 1, dv, amb.nonce.bytes,
        prim.aeadEncrypt dek amb.nonce (secretAad group name (e.toNat + 1) dv) value⟩, located, ?_,
        rfl, ?_⟩
      · rw [secretCurrent_eq, stored.current, if_pos ⟨rfl, rfl⟩]
        rfl
      · intro w hw hg hv
        exact holdsRead_of_wrapped_current hc₀.keys hf newest hw hg hv

/-- その reader の取り消し。 -/
def sampleRevoked : List (Node.Op × Ambient) := sampleCalls [('a', .grant "g" "bob" 0)]

theorem put_never_under_revoked_sample :
    ∃ (gid : Nat) (sv : SecretVersion),
      groupId (Node.exec plain sampleDb (sampleGranted ++ sampleRevoked)) "g" = some gid ∧
      sv.version = 1 ∧
      ∀ w ∈ (Node.exec plain sampleDb sampleGranted).dekWrap, w.groupId = gid →
        w.dekVersion = sv.dekVersion → w.recipient ≠ recipientOperational →
          w.recipient ≠ recipientBackup →
            HoldsRead (Node.exec plain sampleDb (sampleGranted ++ sampleRevoked)) w.recipient gid := by
  have hput : Node.step plain (Node.exec plain sampleDb (sampleGranted ++ sampleRevoked))
      (.handle ⟨"o"⟩ (samplePeer 'a') (.put "g" "n" [1] 0)) (sampleAmbient 9) =
        (some (.version 1), _) := Prod.ext (by decide) rfl
  obtain ⟨gid, sv, hg, -, hver, hw⟩ :=
    put_never_under_revoked plain_lawful (by decide) init_sampleDb sampleGranted sampleRevoked hput
  exact ⟨gid, sv, hg, hver, hw⟩

end SecretBunker
