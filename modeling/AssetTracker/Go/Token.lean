import AssetTracker.Lib.Base64
import AssetTracker.Lib.Binary
import AssetTracker.Go.Auth

/-!
# The text of a token

How golang-jwt writes the tokens that `HandleLogin` returns: three parts in
unpadded base64url, the second of them the JSON text of the claims.

Results:
1. `parse_payload`: the text of the claims is read as the claims.
2. `parse_binary_payload`: when its bytes are taken for characters, `exp` is
   still read as it was written.
3. `plainJwt_signs`, `plainJwt_compact`: what is assumed of golang-jwt can hold.
-/

namespace AssetTracker.GoService

open Encoding Text JsonLemmas Base64

/-- The JSON text of the claims, in the order of their names. -/
def Claims.payload (claims : Claims) : String :=
  objectText
    [intMember ("exp", claims.exp), intMember ("iat", claims.iat), stringMember ("sub", claims.sub)]

/-- What is assumed of the texts that golang-jwt writes: three parts in base64url, with dots
between them, of which the second one is the JSON text of the claims. -/
def Jwt.Compact (jwt : Jwt) : Prop :=
  ∀ (key : String) (claims : Claims) (s : String), jwt.signedString key claims = .ok s →
    ∃ header signature : List UInt8,
      s = encodeUrl header ++ "." ++ encodeUrl (utf8 claims.payload) ++ "." ++ encodeUrl signature

/-! ## 1. Reading the claims -/

theorem parse_payload (claims : Claims) :
    parse claims.payload = some (.obj [(utf16 "exp", ofInt claims.exp),
      (utf16 "iat", ofInt claims.iat), (utf16 "sub", .str (utf16 claims.sub))]) := by
  unfold Claims.payload
  rw [parse_objectText]
  simp [MemberText.member, intMember, stringMember]

/-! ## 2. Reading their bytes -/

theorem parse_binary_payload (claims : Claims) :
    ∃ members, parse (binaryString (utf8 claims.payload)) = some (.obj members) ∧
      lookup (utf16 "exp") members = some (ofInt claims.exp) := by
  obtain ⟨v, hv⟩ := denotes_binary_writeString claims.sub
  let sub : MemberText :=
    ⟨utf16 "sub", .str v, (writeString "sub").tail, _, readString_writeString "sub", hv⟩
  have hascii : (writeString "sub").tail.all isAscii = true := by decide
  have hsub : BinaryOf (stringMember ("sub", claims.sub)) sub := by
    refine ⟨(binary_ascii ?_).symm, rfl⟩
    exact ascii_of_all hascii
  have htext : binaryString (utf8 claims.payload) =
      objectText [intMember ("exp", claims.exp), intMember ("iat", claims.iat), sub] :=
    binaryString_objectText
      (.cons (binaryOf_intMember _ (by decide)) (.cons (binaryOf_intMember _ (by decide))
        (.cons hsub .nil)))
  rw [htext, parse_objectText]
  refine ⟨_, rfl, ?_⟩
  have hiat : utf16 "iat" ≠ utf16 "exp" := by decide
  have hname : utf16 "sub" ≠ utf16 "exp" := by decide
  simp [lookup, MemberText.member, intMember, sub, hiat, hname]

/-! ## 3. A golang-jwt with the key for a signature -/

def plainHeader : List UInt8 := utf8 "\x7b\"alg\":\"HS256\",\"typ\":\"JWT\"\x7d"

/-- The subject and the expiry of a payload. -/
def plainClaims (payload : String) : Option (String × Int) :=
  match parse payload with
  | some (.obj [(_, .num exp), _, (_, .str sub)]) =>
    some (ofUtf16 sub, if exp.negative then -(exp.digits : Int) else exp.digits)
  | _ => none

/-- The parts of a token are the signature, the subject and the expiry. -/
def plainJwt : Jwt where
  Token := List UInt8 × String × Int
  decode s :=
    match s.toList.splitOn '.' with
    | [_, payload, signature] => do
      let bytes ← decodeUrl (String.ofList payload)
      let text ← String.fromUTF8? ⟨bytes.toArray⟩
      let (sub, exp) ← plainClaims text
      let signature ← decodeUrl (String.ofList signature)
      return (signature, sub, exp)
    | _ => none
  isHmac _ := true
  verify key token := token.1 == utf8 key
  validAt t token := t < token.2.2 * nanosPerSecond
  sub token := some token.2.1
  signedString key claims :=
    .ok (encodeUrl plainHeader ++ "." ++ encodeUrl (utf8 claims.payload) ++ "." ++
      encodeUrl (utf8 key))

theorem plainJwt_compact : plainJwt.Compact :=
  fun key _ _ h => ⟨plainHeader, utf8 key, (Except.ok.inj h).symm⟩

theorem plainClaims_payload (claims : Claims) :
    plainClaims claims.payload = some (claims.sub, claims.exp) := by
  have hexp : (if decide (claims.exp < 0) then -(claims.exp.natAbs : Int) else claims.exp.natAbs) =
      claims.exp := by
    by_cases h : claims.exp < 0
    · rw [decide_eq_true h, if_pos rfl]
      omega
    · rw [decide_eq_false h, if_neg Bool.false_ne_true]
      omega
  unfold plainClaims
  rw [parse_payload]
  simp only [ofInt, ofUtf16_utf16, hexp]

theorem fromUTF8_utf8 (s : String) : String.fromUTF8? ⟨(utf8 s).toArray⟩ = some s := by
  have hbytes : (⟨(utf8 s).toArray⟩ : ByteArray) = s.toUTF8 := by
    rw [String.toUTF8_eq_toByteArray, ← String.utf8Encode_toList]
    exact ByteArray.ext List.data_toByteArray.symm
  rw [hbytes, fromUTF8_toUTF8]

theorem plainJwt_signs : plainJwt.Signs := by
  intro key claims s h
  rw [← Except.ok.inj h]
  refine ⟨(utf8 key, claims.sub, claims.exp), ?_, rfl, beq_self_eq_true _, rfl, fun t => rfl⟩
  dsimp only [plainJwt]
  rw [splitOn_dot]
  simp [fromUTF8_utf8, plainClaims_payload]

end AssetTracker.GoService
