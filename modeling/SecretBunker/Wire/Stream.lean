import SecretBunker.Framing
import SecretBunker.Wire.Decode

/-!
# 途中で切れる sync の stream

`src/sync.rs` の `write_msg` と `read_msg` を、CBOR の復号まで通してつなぐ。書いた側の stream がどの
byte で切れても、読む側は、frame が届ききった message をちょうど書いた順に受け取り、その先では何も
作り出さない。
-/

namespace SecretBunker

open Cbor Consume

variable {α : Type} {encode : α → Bytes} {ofValue : Value → Option α}

/-- 書いた message の stream。上限を超える message は何も書かない。 -/
def stream (encode : α → Bytes) (msgs : List α) : Bytes :=
  msgs.flatMap fun m => (frame encode m).getD []

/-- 切れた stream から読めるのは、届ききった message である。 -/
theorem run_take_stream {read : Bytes → Except String α}
    (hread : Decodes (fun bytes => (read bytes).toOption) encode ofValue) {msgs : List α}
    (hback : ∀ m ∈ msgs, (encode m).length < 2 ^ 64 → decode ofValue (encode m) = some m)
    (hframe : ∀ m ∈ msgs, (frame encode m).isSome) (cut : Nat) :
    ∃ n ≤ msgs.length, ((readMsgs read).run ((stream encode msgs).take cut)).1 = msgs.take n ∧
      (stream encode (msgs.take n)).length ≤ cut ∧
      (n < msgs.length → cut < (stream encode (msgs.take (n + 1))).length) := by
  rw [Consumer.run_congr (step_readMsgs read)]
  refine Consumer.run_take_flatMap (fun m hm rest => ?_) (fun m hm p hp hne => ?_) rfl cut
  · obtain ⟨f, hf⟩ := Option.isSome_iff_exists.mp (hframe m hm)
    have hlen : (encode m).length < 2 ^ 64 := (frame_eq_some hf).1.trans_lt (by decide)
    rw [hf, Option.getD_some]
    have hok : read (encode m) = .ok m := by
      have hsome := hread m (hback m hm hlen)
      cases hr : read (encode m) with
      | error e => simp [hr, Except.toOption] at hsome
      | ok m' => simpa [hr, Except.toOption] using hsome
    exact step_framed hok hf rest
  · obtain ⟨f, hf⟩ := Option.isSome_iff_exists.mp (hframe m hm)
    rw [hf, Option.getD_some] at hp hne
    obtain ⟨e, he⟩ := @deframe_truncated α read m f encode p hf hp hne
    simp only [deframes, he]

/-- **stream がどこで切れても、届いた message はそのまま読める。** 上限に収まる message を並べて書き、
任意の byte で切ると、`read_msg` の繰り返しは、frame が届ききった message だけを書いた順にすべて読む。
要求の向きでも、応答の向きでも同じである。 -/
theorem sync_stream_cut {readRequest : Bytes → Except String SyncRequest}
    {readMessage : Bytes → Except String SyncMessage}
    (hrequest : Decodes (fun bytes => (readRequest bytes).toOption) SyncRequest.encode
      SyncRequest.ofValue)
    (hmessage : Decodes (fun bytes => (readMessage bytes).toOption) SyncMessage.encode
      SyncMessage.ofValue) :
    (∀ reqs : List SyncRequest, (∀ r ∈ reqs, (frame SyncRequest.encode r).isSome) →
      ∀ cut, ∃ n ≤ reqs.length,
        ((readMsgs readRequest).run ((stream SyncRequest.encode reqs).take cut)).1 =
          reqs.take n ∧
        (stream SyncRequest.encode (reqs.take n)).length ≤ cut ∧
        (n < reqs.length → cut < (stream SyncRequest.encode (reqs.take (n + 1))).length)) ∧
    (∀ msgs : List SyncMessage,
      (∀ m ∈ msgs, m.InRange ∧ (frame SyncMessage.encode m).isSome) →
      ∀ cut, ∃ n ≤ msgs.length,
        ((readMsgs readMessage).run ((stream SyncMessage.encode msgs).take cut)).1 =
          msgs.take n ∧
        (stream SyncMessage.encode (msgs.take n)).length ≤ cut ∧
        (n < msgs.length → cut < (stream SyncMessage.encode (msgs.take (n + 1))).length)) := by
  constructor
  · intro reqs hframe cut
    refine run_take_stream hrequest (fun r _ hlen => ?_) hframe cut
    have h := decode_append r.readsBack_encode hlen r.ofValue_toValue []
    rwa [List.append_nil] at h
  · intro msgs hmsgs cut
    refine run_take_stream hmessage (fun m hm hlen => ?_) (fun m hm => (hmsgs m hm).2) cut
    have hrange := (hmsgs m hm).1
    have h := decode_append (SyncMessage.readsBack_encode hrange) hlen
      (SyncMessage.ofValue_toValue hrange) []
    rwa [List.append_nil] at h

/-- `decode` の答えを、誤りの文言を付けて返す。 -/
def decodeWithReason (ofValue : Value → Option α) (bytes : Bytes) : Except String α :=
  match decode ofValue bytes with
  | some msg => .ok msg
  | none => .error "invalid type"

theorem decodes_withReason (encode : α → Bytes) (ofValue : Value → Option α) :
    Decodes (fun bytes => (decodeWithReason ofValue bytes).toOption) encode ofValue := by
  intro msg h
  simp only [decodeWithReason, h]
  rfl

theorem sync_stream_cut_sample :
    ∃ n ≤ 2, ((readMsgs (decodeWithReason SyncMessage.ofValue)).run
        ((stream SyncMessage.encode [.manifestDone, .changed "g"]).take 20)).1 =
      [SyncMessage.manifestDone, .changed "g"].take n := by
  obtain ⟨n, hn, hrun, -⟩ := (sync_stream_cut (decodes_withReason _ SyncRequest.ofValue)
    (decodes_withReason _ SyncMessage.ofValue)).2 [.manifestDone, .changed "g"]
    (by simpa using ⟨⟨trivial, by decide⟩, trivial, by decide⟩) 20
  exact ⟨n, hn, hrun⟩

end SecretBunker
