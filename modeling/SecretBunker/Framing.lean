import SecretBunker.Lib.Consume
import SecretBunker.Wire

/-!
# frame の切り分け

`src/sync.rs` の `deframe` と `read_msg`。前者は手元にある byte の列から、後者は stream から、長さの
付いた message を一つ読む。二つは別々に書かれている。

`read_msg` を `deframe` の答えで言い表すと（`readMsg_eq`）、違いは二つしか残らない。空の stream は
誤りではなく終わりであることと、途中で切れたときの誤りの言い方である。どちらも読み進める位置には
響かないので、繰り返したときに読める message も止まる位置も同じになる。
-/

namespace SecretBunker

open Cbor Consume

variable {α : Type}

/-- `deframe` の誤り。 -/
inductive FrameError where
  | truncatedPrefix (got : Nat)
  | exceedsCap (len : Nat)
  | truncatedBody (got len : Nat)
  | cbor (reason : String)
  deriving DecidableEq, Repr

/-- source の `bail!` の文面。 -/
def FrameError.text : FrameError → String
  | .truncatedPrefix got => s!"sync frame: truncated length prefix ({got} of 4 bytes)"
  | .exceedsCap len => s!"sync frame of {len} bytes exceeds {syncMaxMsg}-byte cap"
  | .truncatedBody got len => s!"sync frame: truncated body ({got} of {len} bytes)"
  | .cbor reason => reason

/-- 先頭の frame の message と、使った byte の数。 -/
def deframe (decode : Bytes → Except String α) (bytes : Bytes) : Except FrameError (α × Nat) :=
  if bytes.length < 4 then .error (.truncatedPrefix bytes.length)
  else
    let len := ofBeBytes (bytes.take 4)
    if !checkCap len then .error (.exceedsCap len)
    else if bytes.length < 4 + len then .error (.truncatedBody (bytes.length - 4) len)
    else
      match decode ((bytes.drop 4).take len) with
      | .ok msg => .ok (msg, 4 + len)
      | .error reason => .error (.cbor reason)

/-! ## stream から読む -/

/-- `read_msg` の誤り。`finishedEarly` は `iroh` の `ReadExactError::FinishedEarly` である。 -/
inductive ReadError where
  | finishedEarly (got : Nat)
  | exceedsCap (len : Nat)
  | cbor (reason : String)
  deriving DecidableEq, Repr

/-- 終わりまで届いた stream から、ちょうど `n` byte を読む。足りなければ、読めた数を返して失敗する。 -/
def readExact (n : Nat) (recv : Bytes) : Except Nat (Bytes × Bytes) :=
  if recv.length < n then .error recv.length else .ok (recv.take n, recv.drop n)

/-- message と残りの stream。次の長さの始まるところで stream が終わっていれば、message は無い。 -/
def readMsg (decode : Bytes → Except String α) (recv : Bytes) :
    Except ReadError (Option α × Bytes) :=
  match readExact 4 recv with
  | .error 0 => .ok (none, [])
  | .error got => .error (.finishedEarly got)
  | .ok (lenBuf, rest) =>
    let len := ofBeBytes lenBuf
    if !checkCap len then .error (.exceedsCap len)
    else
      match readExact len rest with
      | .error got => .error (.finishedEarly got)
      | .ok (body, rest) =>
        match decode body with
        | .ok msg => .ok (some msg, rest)
        | .error reason => .error (.cbor reason)

/-- 同じ誤りの、stream の側での言い方。 -/
def FrameError.onStream : FrameError → ReadError
  | .truncatedPrefix got => .finishedEarly got
  | .exceedsCap len => .exceedsCap len
  | .truncatedBody got _ => .finishedEarly got
  | .cbor reason => .cbor reason

variable {decode : Bytes → Except String α} {msg : α} {f : Bytes}

/-- 読めたのは、長さと中身がそろっていて、長さが上限に収まり、中身が復号できたときである。 -/
theorem deframe_eq_ok {bytes : Bytes} {used : Nat} :
    deframe decode bytes = .ok (msg, used) ↔
      ofBeBytes (bytes.take 4) ≤ syncMaxMsg ∧ used = 4 + ofBeBytes (bytes.take 4) ∧
        used ≤ bytes.length ∧
        decode ((bytes.drop 4).take (ofBeBytes (bytes.take 4))) = .ok msg := by
  constructor
  · intro h
    simp only [deframe] at h
    split at h
    · cases h
    · split at h
      · cases h
      · next hcap =>
        split at h
        · cases h
        · next hlen =>
          split at h
          · next hdec =>
            cases h
            exact ⟨by simpa [checkCap] using hcap, rfl, Nat.le_of_not_lt hlen, hdec⟩
          · cases h
  · rintro ⟨hcap, rfl, hlen, hdec⟩
    have hcheck : checkCap (ofBeBytes (bytes.take 4)) = true := by simpa [checkCap] using hcap
    simp only [deframe, hcheck, hdec, if_neg (by omega : ¬bytes.length < 4),
      if_neg (Nat.not_lt.mpr hlen), Bool.not_true, Bool.false_eq_true, if_false]

/-- **一回分の一致。** stream から読むのは、手元の列から読んで使った分だけ進むのと同じである。 -/
theorem readMsg_eq (decode : Bytes → Except String α) (recv : Bytes) :
    readMsg decode recv =
      match deframe decode recv with
      | .ok (msg, used) => .ok (some msg, recv.drop used)
      | .error e => if recv = [] then .ok (none, []) else .error e.onStream := by
  by_cases hshort : recv.length < 4
  · simp only [readMsg, deframe, readExact, if_pos hshort]
    cases recv with
    | nil => rfl
    | cons x rest => rfl
  · have hne : recv ≠ [] := fun h => hshort (by rw [h]; decide)
    simp only [readMsg, deframe, readExact, if_neg hshort, List.length_drop]
    by_cases hcap : checkCap (ofBeBytes (recv.take 4)) = true
    · by_cases hbody : recv.length < 4 + ofBeBytes (recv.take 4)
      · have hbody' : recv.length - 4 < ofBeBytes (recv.take 4) := by omega
        simp [hcap, hbody, hbody', hne, FrameError.onStream]
      · have hbody' : ¬recv.length - 4 < ofBeBytes (recv.take 4) := by omega
        simp only [hcap, hbody, hbody', Bool.not_true, Bool.false_eq_true, if_false,
          List.drop_drop]
        cases decode ((recv.drop 4).take (ofBeBytes (recv.take 4))) with
        | ok msg => rfl
        | error reason => simp [hne, FrameError.onStream]
    · simp [hcap, hne, FrameError.onStream]

/-! ## 繰り返し -/

/-- `deframe` を、使った分だけ進めながら繰り返す。 -/
def deframes (decode : Bytes → Except String α) : Consumer UInt8 α where
  step bytes :=
    match deframe decode bytes with
    | .ok (msg, used) => some (msg, bytes.drop used)
    | .error _ => none
  shrinks := by
    intro bytes msg rest h
    split at h
    · next used hok =>
      cases h
      obtain ⟨-, hused, hle, -⟩ := deframe_eq_ok.mp hok
      rw [List.length_drop]
      omega
    · cases h

/-- `read_msg` を、`None` か誤りが返るまで繰り返す。 -/
def readMsgs (decode : Bytes → Except String α) : Consumer UInt8 α where
  step recv :=
    match readMsg decode recv with
    | .ok (some msg, rest) => some (msg, rest)
    | _ => none
  shrinks := by
    intro recv msg rest h
    rw [readMsg_eq] at h
    split at h
    · next hok =>
      cases h
      split at hok
      · next used hd =>
        cases hok
        obtain ⟨-, hused, hle, -⟩ := deframe_eq_ok.mp hd
        rw [List.length_drop]
        omega
      · split at hok <;> cases hok
    · cases h

theorem step_readMsgs (decode : Bytes → Except String α) (bytes : Bytes) :
    (readMsgs decode).step bytes = (deframes decode).step bytes := by
  simp only [readMsgs, deframes, readMsg_eq]
  cases deframe decode bytes with
  | ok p => rfl
  | error e =>
    by_cases hnil : bytes = []
    · simp [hnil]
    · simp [hnil]

theorem deframe_of_step {bytes : Bytes} (h : (deframes decode).step bytes = none) :
    ∃ e, deframe decode bytes = .error e := by
  simp only [deframes] at h
  split at h
  · cases h
  · next e he => exact ⟨e, he⟩

/-- 止まったところでは、列が尽きていれば `None` が、残っていれば誤りが返る。 -/
theorem readMsg_of_stop {bytes : Bytes} (h : (deframes decode).step bytes = none) :
    (readMsg decode bytes = .ok (none, []) ↔ bytes = []) ∧
      (bytes ≠ [] → ∃ e, deframe decode bytes = .error e ∧
        readMsg decode bytes = .error e.onStream) := by
  obtain ⟨e, he⟩ := deframe_of_step h
  have hread := readMsg_eq decode bytes
  rw [he] at hread
  by_cases hnil : bytes = []
  · simp only [hnil, if_true] at hread
    exact ⟨iff_of_true (by rw [hnil, hread]) hnil, fun hne => absurd hnil hne⟩
  · simp only [if_neg hnil] at hread
    exact ⟨iff_of_false (by rw [hread]; exact nofun) hnil, fun _ => ⟨e, he, hread⟩⟩

/-! ## frame を読み戻す -/

variable {encode : α → Bytes}

theorem frame_eq_some (h : frame encode msg = some f) :
    (encode msg).length ≤ syncMaxMsg ∧ f = beBytes 4 (encode msg).length ++ encode msg := by
  have hcap := frame_isSome_iff.mp (h ▸ rfl : (frame encode msg).isSome)
  unfold frame at h
  rw [if_pos (by simpa [checkCap] using hcap)] at h
  exact ⟨hcap, (Option.some.inj h).symm⟩

theorem ofBeBytes_frame (h : (encode msg).length ≤ syncMaxMsg) :
    ofBeBytes (beBytes 4 (encode msg).length) = (encode msg).length :=
  ofBeBytes_beBytes (h.trans_lt (by decide))

/-- 後ろに何が続いても、frame の分だけを読む。 -/
theorem deframe_framed (hm : decode (encode msg) = .ok msg) (h : frame encode msg = some f)
    (rest : Bytes) : deframe decode (f ++ rest) = .ok (msg, f.length) := by
  obtain ⟨hcap, rfl⟩ := frame_eq_some h
  have htake : ((beBytes 4 (encode msg).length ++ encode msg) ++ rest).take 4 =
      beBytes 4 (encode msg).length := by
    rw [List.append_assoc, List.take_left' (length_beBytes _ _)]
  have hbody : (((beBytes 4 (encode msg).length ++ encode msg) ++ rest).drop 4).take
      (encode msg).length = encode msg := by
    rw [List.append_assoc, List.drop_left' (length_beBytes _ _), List.take_left' rfl]
  rw [deframe_eq_ok, htake, ofBeBytes_frame hcap, hbody]
  exact ⟨hcap, by simp, by simp, hm⟩

theorem step_framed (hm : decode (encode msg) = .ok msg) (h : frame encode msg = some f)
    (rest : Bytes) : (deframes decode).step (f ++ rest) = some (msg, rest) := by
  simp only [deframes, deframe_framed hm h rest, List.drop_left]

/-- 途中で切れた frame は読めない。 -/
theorem deframe_truncated {p : Bytes} (h : frame encode msg = some f) (hp : p <+: f) (hne : p ≠ f) :
    ∃ e, deframe decode p = .error e := by
  obtain ⟨hcap, hf⟩ := frame_eq_some h
  have hlt : p.length < f.length :=
    Nat.lt_of_le_of_ne hp.length_le fun heq => hne (hp.eq_of_length heq)
  cases hd : deframe decode p with
  | error e => exact ⟨e, rfl⟩
  | ok r =>
    obtain ⟨-, hused, hle, -⟩ := deframe_eq_ok.mp hd
    -- 長さまで読めたなら、それは元の frame の長さである
    obtain ⟨t, ht⟩ := hp
    have htake : p.take 4 = beBytes 4 (encode msg).length := by
      rw [← List.take_append_of_le_length (by omega : 4 ≤ p.length), ht, hf,
        List.take_left' (length_beBytes _ _)]
    rw [htake, ofBeBytes_frame hcap] at hused
    rw [hf, List.length_append, length_beBytes] at hlt
    omega

theorem deframe_exceedsCap {p : Bytes} (h4 : p.length = 4) (hcap : syncMaxMsg < ofBeBytes p)
    (rest : Bytes) : deframe decode (p ++ rest) = .error (.exceedsCap (ofBeBytes p)) := by
  have hcheck : checkCap (ofBeBytes p) = false := by simpa [checkCap] using hcap
  simp [deframe, List.take_left' h4, h4, hcheck]

/-- **frame の切り分けは曖昧でない。** `frame` を通る message をいくつ並べても、`deframe` の繰り返しは
ちょうどそれらを読み、byte を残さない。途中で切れた frame も、上限を超える長さも、`deframe` は必ず
断る。どんな byte の列でも、きれいに終わる stream から `read_msg` を繰り返すと、同じ message が同じ順に
読めて同じ位置で止まる。そこで列が尽きていれば `None` が、残っていれば両方で同じ誤りが返る。 -/
theorem framing_unambiguous (encode : α → Bytes) (decode : Bytes → Except String α)
    (hinv : ∀ m, decode (encode m) = .ok m) :
    (∀ msgs : List α, (∀ m ∈ msgs, (frame encode m).isSome) →
      (deframes decode).run (msgs.flatMap fun m => (frame encode m).getD []) = (msgs, [])) ∧
    (∀ msg f p, frame encode msg = some f → p <+: f → p ≠ f → ∃ e, deframe decode p = .error e) ∧
    (∀ p rest : Bytes, p.length = 4 → syncMaxMsg < ofBeBytes p →
      deframe decode (p ++ rest) = .error (.exceedsCap (ofBeBytes p))) ∧
    ∀ bytes : Bytes, ∃ msgs rest,
      (deframes decode).run bytes = (msgs, rest) ∧ (readMsgs decode).run bytes = (msgs, rest) ∧
      (readMsg decode rest = .ok (none, []) ↔ rest = []) ∧
      (rest ≠ [] → ∃ e, deframe decode rest = .error e ∧
        readMsg decode rest = .error e.onStream) := by
  refine ⟨?_, fun msg f p h => deframe_truncated h, fun p rest h4 hcap =>
    deframe_exceedsCap h4 hcap rest, ?_⟩
  · intro msgs hmsgs
    refine Consumer.run_flatMap (fun m hm rest => ?_) rfl
    obtain ⟨f, hf⟩ := Option.isSome_iff_exists.mp (hmsgs m hm)
    rw [hf, Option.getD_some]
    exact step_framed (hinv _) hf rest
  · intro bytes
    refine ⟨_, _, rfl, Consumer.run_congr (step_readMsgs decode) bytes, ?_⟩
    exact readMsg_of_stop ((deframes decode).step_run bytes)

/-- `Cbor.boolean` の逆。 -/
def decodeBoolean : Bytes → Except String Bool
  | [0xf4] => .ok false
  | [0xf5] => .ok true
  | _ => .error "invalid type"

theorem framing_unambiguous_sample :
    (∀ b, decodeBoolean (boolean b) = .ok b) ∧
      (deframes decodeBoolean).run [0, 0, 0, 1, 0xf5, 0, 0, 0, 1, 0xf4] = ([true, false], []) ∧
      (∃ e, deframe decodeBoolean [0, 0, 0, 1] = .error e) ∧
      deframe decodeBoolean [1, 0, 0, 0, 0xf5] = .error (.exceedsCap 0x1000000) := by
  have hinv : ∀ b, decodeBoolean (boolean b) = .ok b := by decide
  obtain ⟨hread, hcut, hcap, -⟩ := framing_unambiguous boolean decodeBoolean hinv
  refine ⟨hinv, hread [true, false] (by decide), ?_, hcap [1, 0, 0, 0] [0xf5] rfl (by decide)⟩
  exact hcut true [0, 0, 0, 1, 0xf5] [0, 0, 0, 1] (by decide) (by decide) (by decide)

end SecretBunker
