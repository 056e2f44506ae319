import Mathlib.Algebra.Group.Nat.Defs
import Mathlib.Data.List.Basic

/-!
# 暗号

`src/crypto.rs` と `src/agebridge.rs`、`src/keys.rs` の recipient の読み取り。

age と ChaCha20-Poly1305、iroh の鍵の型は repository の外にあるので、
それらの関数を `Primitives` にまとめて引数に取る。
この development が依る振る舞いは `Primitives.Lawful` に並べてある。
-/

namespace SecretBunker

/-- source の `Vec<u8>`。 -/
abbrev Bytes := List UInt8

/-- `DEK_LEN`。 -/
def dekLen : Nat := 32

/-- `NONCE_LEN`。 -/
def nonceLen : Nat := 12

/-- group の data-encryption key。長さはつねに `dekLen` である。 -/
structure Dek where
  bytes : Bytes
  length_eq : bytes.length = dekLen
  deriving DecidableEq

/-- AEAD の nonce。 -/
structure Nonce where
  bytes : Bytes
  length_eq : bytes.length = nonceLen
  deriving DecidableEq

/-- 長さの合う bytes だけを DEK として受け取る。 -/
def Dek.fromBytes (bytes : Bytes) : Option Dek :=
  if h : bytes.length = dekLen then some ⟨bytes, h⟩ else none

@[simp] theorem Dek.fromBytes_bytes (d : Dek) : Dek.fromBytes d.bytes = some d := by
  unfold Dek.fromBytes
  rw [dif_pos d.length_eq]

/-- age の x25519 recipient。`to_string` の Bech32 表記で持つ。 -/
structure Recipient where
  bech32 : String
  deriving DecidableEq

/-- age の x25519 identity（秘密鍵）。 -/
structure AgeIdentity where
  secretKey : String
  deriving DecidableEq

/-- iroh の EndpointId。`to_string` の小文字 16 進表記で持つ。 -/
structure EndpointId where
  text : String
  deriving DecidableEq

/--
repository の外にある関数。

乱数を使うもの（`ageEncrypt`）は使った乱数を引数に取る。
`aeadEncrypt` は Option を返さない。`ChaCha20Poly1305::encrypt` が失敗するのは
256 GiB を超える平文だけで、frame の上限 4 MiB より先に届かない。
-/
structure Primitives where
  /-- `age::x25519::Identity::to_public` -/
  toPublic : AgeIdentity → Recipient
  /-- `keys::parse_age_recipient`：空白を落としてから `Recipient::from_str` -/
  parseAgeRecipient : String → Option Recipient
  ageEncrypt : Recipient → Bytes → Bytes → Bytes
  ageDecrypt : AgeIdentity → Bytes → Option Bytes
  /-- `str::parse::<EndpointId>` -/
  parseEndpointId : String → Option EndpointId
  /-- `agebridge::recipient_for_endpoint`：ed25519 の公開鍵から導いた recipient -/
  recipientForEndpoint : EndpointId → Option Recipient
  /-- `ChaCha20Poly1305::encrypt`（鍵、nonce、associated data、平文） -/
  aeadEncrypt : Dek → Nonce → Bytes → Bytes → Bytes
  /-- `ChaCha20Poly1305::decrypt` -/
  aeadDecrypt : Dek → Nonce → Bytes → Bytes → Option Bytes
  sha256 : Bytes → Bytes

/-- 外の関数の、文書化された振る舞い。 -/
structure Primitives.Lawful (prim : Primitives) : Prop where
  /-- 自分に宛てた age file は開ける。 -/
  age_decrypt_own : ∀ i seed b, prim.ageDecrypt i (prim.ageEncrypt (prim.toPublic i) seed b) = some b
  /-- 他人に宛てた age file は開かない。 -/
  age_decrypt_other : ∀ i r seed b b',
    prim.ageDecrypt i (prim.ageEncrypt r seed b) = some b' → prim.toPublic i = r
  /-- identity の recipient は、表記から読み戻せる。 -/
  parse_public : ∀ i, prim.parseAgeRecipient (prim.toPublic i).bech32 = some (prim.toPublic i)
  /-- 一度読めた recipient は、その表記から読み戻せる。 -/
  parse_parsed : ∀ s r, prim.parseAgeRecipient s = some r → prim.parseAgeRecipient r.bech32 = some r
  /-- 正規化された EndpointId は 64 文字の 16 進である。 -/
  endpoint_text : ∀ s e, prim.parseEndpointId s = some e → e.text.length = 64
  aead_roundtrip : ∀ dek nonce aad m, prim.aeadDecrypt dek nonce aad (prim.aeadEncrypt dek nonce aad m) = some m

/--
呼び出し一回ぶんの時刻と乱数。

`dek k` は呼び出しの中で `k` 番目に作る DEK、`seed k v r` はその DEK（または version `v` の
DEK）を recipient `r` に包むときの乱数である。
-/
structure Ambient where
  now : Int
  dek : Nat → Dek
  seed : Nat → Nat → String → Bytes
  nonce : Nonce

/-! ## `crypto.rs` -/

variable (prim : Primitives)

/-- DEK を宛先の公開鍵で包む。`seed` は age の使う乱数である。 -/
def wrapDek (seed : Bytes) (dek : Dek) (recipient : Recipient) : Bytes :=
  prim.ageEncrypt recipient seed dek.bytes

/-- 包みを開く。中身の長さが合わなければ失敗する。 -/
def unwrapDek (wrapped : Bytes) (identity : AgeIdentity) : Option Dek :=
  (prim.ageDecrypt identity wrapped).bind Dek.fromBytes

/-- `u64::to_be_bytes` -/
def toBeBytes (n : Nat) : Bytes :=
  [7, 6, 5, 4, 3, 2, 1, 0].map fun i => UInt8.ofNat (n / 256 ^ i)

/-- `str::as_bytes` -/
def asBytes (s : String) : Bytes := s.toUTF8.data.toList

/-- 暗号文を置き場所に縛る associated data。長さを前に置くので、どんな名前でも曖昧にならない。 -/
def secretAad (group name : String) (version dekVersion : Nat) : Bytes :=
  asBytes "secret-bunker-iroh/1"
    ++ toBeBytes (asBytes group).length ++ asBytes group
    ++ toBeBytes (asBytes name).length ++ asBytes name
    ++ toBeBytes version ++ toBeBytes dekVersion

/-- nonce と暗号文の組を返す。 -/
def encryptSecret (nonce : Nonce) (dek : Dek) (aad plaintext : Bytes) : Bytes × Bytes :=
  (nonce.bytes, prim.aeadEncrypt dek nonce aad plaintext)

/-- nonce の長さが違えば、復号の前に失敗する。 -/
def decryptSecret (dek : Dek) (aad nonce ciphertext : Bytes) : Option Bytes :=
  if h : nonce.length = nonceLen then prim.aeadDecrypt dek ⟨nonce, h⟩ aad ciphertext else none

/-- `agebridge::recipient_for_endpoint_hex` -/
def recipientForEndpointHex (hex : String) : Option Recipient :=
  (prim.parseEndpointId hex).bind prim.recipientForEndpoint

/-! ## 往復 -/

variable {prim}

theorem unwrapDek_wrapDek (laws : prim.Lawful) (seed : Bytes) (dek : Dek) (i : AgeIdentity) :
    unwrapDek prim (wrapDek prim seed dek (prim.toPublic i)) i = some dek := by
  unfold unwrapDek wrapDek
  rw [laws.age_decrypt_own, Option.bind_some, Dek.fromBytes_bytes]

/-- 開いた wrap からは、包んだ DEK しか出ない。 -/
theorem eq_of_unwrapDek (laws : prim.Lawful) {seed : Bytes} {dek dek' : Dek} {r : Recipient}
    {i : AgeIdentity} (h : unwrapDek prim (wrapDek prim seed dek r) i = some dek') :
    dek' = dek := by
  have hr : prim.toPublic i = r := by
    unfold unwrapDek wrapDek at h
    obtain ⟨b, hb, -⟩ := Option.bind_eq_some_iff.mp h
    exact laws.age_decrypt_other _ _ _ _ _ hb
  rw [← hr, unwrapDek_wrapDek laws] at h
  exact (Option.some.inj h).symm

theorem decryptSecret_encryptSecret (laws : prim.Lawful) (nonce : Nonce) (dek : Dek)
    (aad m : Bytes) :
    decryptSecret prim dek aad (encryptSecret prim nonce dek aad m).1
      (encryptSecret prim nonce dek aad m).2 = some m := by
  unfold decryptSecret encryptSecret
  rw [dif_pos nonce.length_eq]
  exact laws.aead_roundtrip dek nonce aad m

end SecretBunker
