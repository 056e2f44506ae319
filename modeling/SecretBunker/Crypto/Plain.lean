import SecretBunker.Crypto

/-!
# 法則を満たす最小の実装

age file を「宛名と中身」、AEAD を恒等写像とした実装。秘密は守らないが
`Primitives.Lawful` を満たすので、法則は矛盾せず、model をこの上で実行できる。
-/

namespace SecretBunker

namespace Plain

/-- 一文字の符号。先頭の 1 が「続きがある」ことを示す。 -/
def charCode (c : Char) : Bytes :=
  [1, UInt8.ofNat c.toNat, UInt8.ofNat (c.toNat / 256), UInt8.ofNat (c.toNat / 65536)]

/-- 宛名の符号。0 で終わるので、どの符号も別の符号の先頭部分にならない。 -/
def address : List Char → Bytes
  | [] => [0]
  | c :: rest => charCode c ++ address rest

/-- 宛名が一致したときだけ中身を返す。 -/
def stripAddress (key : List Char) (file : Bytes) : Option Bytes :=
  if (address key).isPrefixOf file then some (file.drop (address key).length) else none

theorem ofNat_inj {m n : Nat} (h : UInt8.ofNat m = UInt8.ofNat n) : m % 256 = n % 256 := by
  have h := congrArg UInt8.toNat h
  simpa using h

/-- 文字の符号は、先頭から読み取れる。 -/
theorem charCode_inj {c d : Char} {x y : Bytes} (h : charCode c ++ x = charCode d ++ y) :
    c = d ∧ x = y := by
  simp only [charCode, List.cons_append, List.nil_append, List.cons.injEq, true_and] at h
  obtain ⟨h₀, h₁, h₂, hxy⟩ := h
  have hc : c.toNat < 1114112 := by
    have := c.valid
    simp only [UInt32.isValidChar, Nat.isValidChar] at this
    have hnat : c.toNat = c.val.toNat := rfl
    omega
  have hd : d.toNat < 1114112 := by
    have := d.valid
    simp only [UInt32.isValidChar, Nat.isValidChar] at this
    have hnat : d.toNat = d.val.toNat := rfl
    omega
  have e₀ := ofNat_inj h₀
  have e₁ := ofNat_inj h₁
  have e₂ := ofNat_inj h₂
  refine ⟨Char.toNat_inj.mp ?_, hxy⟩
  omega

theorem address_inj {k l : List Char} {x y : Bytes} (h : address k ++ x = address l ++ y) :
    k = l ∧ x = y := by
  induction k generalizing l with
  | nil =>
    cases l with
    | nil => exact ⟨rfl, by simpa [address] using h⟩
    | cons d l => simp [address, charCode] at h
  | cons c k ih =>
    cases l with
    | nil => simp [address, charCode] at h
    | cons d l =>
      rw [address, address, List.append_assoc, List.append_assoc] at h
      obtain ⟨rfl, hrest⟩ := charCode_inj h
      obtain ⟨rfl, hxy⟩ := ih hrest
      exact ⟨rfl, hxy⟩

theorem stripAddress_self (key : List Char) (m : Bytes) :
    stripAddress key (address key ++ m) = some m := by
  unfold stripAddress
  rw [if_pos (by simp), List.drop_left]

theorem eq_of_stripAddress {k l : List Char} {m m' : Bytes}
    (h : stripAddress k (address l ++ m) = some m') : k = l := by
  unfold stripAddress at h
  split at h
  · next hp =>
    obtain ⟨t, ht⟩ := List.isPrefixOf_iff_prefix.mp hp
    exact (address_inj ht).1
  · cases h

end Plain

/-- 秘密を守らない実装。 -/
def plain : Primitives where
  toPublic i := ⟨i.secretKey⟩
  parseAgeRecipient s := some ⟨s⟩
  ageEncrypt r _ m := Plain.address r.bech32.toList ++ m
  ageDecrypt i file := Plain.stripAddress i.secretKey.toList file
  parseEndpointId s := if s.length = 64 then some ⟨s⟩ else none
  recipientForEndpoint e := some ⟨String.ofList (e.text.toList.take 1)⟩
  aeadEncrypt _ _ _ m := m
  aeadDecrypt _ _ _ c := some c
  sha256 _ := []

theorem plain_lawful : plain.Lawful where
  age_decrypt_own i _ m := Plain.stripAddress_self i.secretKey.toList m
  age_decrypt_other i r _ m m' h := by
    have hl : i.secretKey.toList = r.bech32.toList := Plain.eq_of_stripAddress h
    exact congrArg Recipient.mk (String.toList_inj.mp hl)
  parse_public _ := rfl
  parse_parsed _ _ _ := rfl
  endpoint_text s e h := by
    simp only [plain] at h
    split at h
    · next hs =>
      cases h
      exact hs
    · cases h
  aead_roundtrip _ _ _ _ := rfl

/-- 暗号文の前に associated data を置く実装。 -/
def tagging : Primitives :=
  { plain with
    aeadEncrypt := fun _ _ aad m => Plain.address (aad.map fun b => Char.ofNat b.toNat) ++ m
    aeadDecrypt := fun _ _ aad c => Plain.stripAddress (aad.map fun b => Char.ofNat b.toNat) c }

theorem tagging_lawful : tagging.Lawful where
  age_decrypt_own := plain_lawful.age_decrypt_own
  age_decrypt_other := plain_lawful.age_decrypt_other
  parse_public := plain_lawful.parse_public
  parse_parsed := plain_lawful.parse_parsed
  endpoint_text := plain_lawful.endpoint_text
  aead_roundtrip _ _ _ m := Plain.stripAddress_self _ m

theorem Plain.toNat_byteChar {n : Nat} (h : n < 256) : (Char.ofNat n).toNat = n := by
  unfold Char.ofNat
  rw [dif_pos (Or.inl (by omega))]
  rfl

/-- 別の associated data では開かない。 -/
theorem tagging_opens_own {dek dek' : Dek} {nonce nonce' : Nonce} {aad aad' m m' : Bytes}
    (h : tagging.aeadDecrypt dek' nonce' aad' (tagging.aeadEncrypt dek nonce aad m) = some m') :
    aad' = aad := by
  refine List.map_injective_iff.mpr (fun a b hab => ?_) (Plain.eq_of_stripAddress h)
  have hnat := congrArg Char.toNat hab
  rw [Plain.toNat_byteChar a.toNat_lt, Plain.toNat_byteChar b.toNat_lt] at hnat
  exact UInt8.toNat_inj.mp hnat

end SecretBunker
