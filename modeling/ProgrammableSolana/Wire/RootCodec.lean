import ProgrammableSolana.Wire.Root

/-! The request and plan codecs of the authority-kernel wire format. -/
namespace ProgrammableSolana.Wire.Root

open ProgrammableSolana.Lib ProgrammableSolana.Solana

def requestCodec : Codec CodecError EngineRequest :=
  (versionCodec.pair <| (Codec.bytes 32).pair <| (Codec.bytes 32).pair <|
    (Codec.bytes 32).pair <| Codec.u64.pair <| Codec.u64.pair <| Codec.u64.pair <|
    Codec.u64.pair <| Codec.u64.pair <| Codec.u64.pair Codec.u64).map
    (fun (_, planHash, market, domain, engineRevision, amountIn, amountOut, protocolFee,
        accountedInputBefore, accountedOutputBefore, accountedFeeBefore) =>
      { planHash, market, domain, engineRevision, amountIn, amountOut, protocolFee,
        accountedInputBefore, accountedOutputBefore, accountedFeeBefore })
    (fun r => ((), r.planHash, r.market, r.domain, r.engineRevision, r.amountIn, r.amountOut,
      r.protocolFee, r.accountedInputBefore, r.accountedOutputBefore, r.accountedFeeBefore))
    (fun _ => rfl) (fun _ => rfl)

theorem readRequest_eq (data : List UInt8) : readRequest data = requestCodec.read data := by
  simp only [readRequest, requestCodec, Codec.map, Codec.pair, Codec.literal, Codec.bytes,
    Codec.u64, Codec.u8, versionCodec, bind_assoc, pure_bind, readU64]

theorem requestCodec_valid (r : EngineRequest) : requestCodec.Valid r := by
  simp only [requestCodec, versionCodec_valid, Codec.map_valid_iff, Codec.pair_valid_iff,
    Codec.bytes_valid, Codec.u64_valid, and_self]

theorem encodeRequest_eq (r : EngineRequest) : encodeRequest r = .ok (requestCodec.enc r) := by
  rw [encodeRequest, fill_enc requestCodec (n := engineRequestLen) (a := r) rfl]
  simp only [List.flatten_cons, List.flatten_nil, List.append_nil]
  rfl

end ProgrammableSolana.Wire.Root
