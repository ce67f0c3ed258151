import Mathlib.Tactic.IntervalCases
import FabricFs.Protocol.Codec

/-!
# What is signed and where it is routed

`canonical_signing_bytes` of `auth.rs` and the subjects of `subjects.rs`. A subject is its
tokens between the dots, and the token of a mount is its name in hexadecimal digits, so a
subject says of which kind it is, of which mount, and what follows. The crate `hex` and the
broker are parameters: `HexCrate` and `Broker` say what is assumed of them.

* `canonicalSigningBytes_injective`: the signed bytes give back the three parts.
* `Subject.text_injective`: a subject gives back its kind, its mount and its operation or query.
* `commandSubjectParts_commandSubject`, `subscription_matches`: where a command arrives.
-/

namespace FabricFs.Transport

open Protocol Codec List

theorem asBytes_injective : Function.Injective asBytes := fun _ _ h =>
  String.toByteArray_inj.mp (ByteArray.ext (Array.toList_inj.mp h))

/-! ## Segments with their length in front -/

/-- The low bytes of a number, the lowest first. -/
def toLeBytes : Nat → Nat → Text
  | 0, _ => []
  | k + 1, n => UInt8.ofNat n :: toLeBytes k (n / 256)

theorem length_toLeBytes (k n : Nat) : (toLeBytes k n).length = k := by
  induction k generalizing n with
  | zero => rfl
  | succ k ih => simp [toLeBytes, ih]

theorem toLeBytes_inj {k m n : Nat} (hm : m < 256 ^ k) (hn : n < 256 ^ k)
    (h : toLeBytes k m = toLeBytes k n) : m = n := by
  induction k generalizing m n with
  | zero => simp at hm hn; omega
  | succ k ih =>
    rw [pow_succ] at hm hn
    obtain ⟨hLow, hRest⟩ := cons.inj h
    have hHigh := ih (by omega) (by omega) hRest
    have hByte := congrArg UInt8.toNat hLow
    simp only [UInt8.toNat_ofNat'] at hByte
    omega

def writeSegment (segment : Text) : Text := toLeBytes 8 segment.length ++ segment

theorem writeSegment_append_inj {a b r s : Text} (ha : a.length < 2 ^ 63) (hb : b.length < 2 ^ 63)
    (h : writeSegment a ++ r = writeSegment b ++ s) : a = b ∧ r = s := by
  simp only [writeSegment, append_assoc] at h
  obtain ⟨hFront, hBack⟩ := append_inj h (by simp [length_toLeBytes])
  exact append_inj hBack (toLeBytes_inj (by omega) (by omega) hFront)

/-- What is signed of a message. A slice holds at most `isize::MAX` bytes. -/
structure Signed where
  subject : String
  reply : String
  payload : Text
  subject_fits : (asBytes subject).length < 2 ^ 63
  reply_fits : (asBytes reply).length < 2 ^ 63
  payload_fits : payload.length < 2 ^ 63

def canonicalSigningBytes (m : Signed) : Text :=
  [asBytes "v1", asBytes m.subject, asBytes m.reply, m.payload].flatMap writeSegment

theorem canonicalSigningBytes_injective : Function.Injective canonicalSigningBytes := by
  rintro ⟨subject, reply, payload, hs, hr, hp⟩ ⟨subject', reply', payload', hs', hr', hp'⟩ h
  obtain ⟨hSubject, h⟩ := writeSegment_append_inj hs hs' (append_cancel_left h)
  obtain ⟨hReply, h⟩ := writeSegment_append_inj hr hr' h
  obtain ⟨rfl, -⟩ := writeSegment_append_inj hp hp' h
  obtain rfl := asBytes_injective hSubject
  obtain rfl := asBytes_injective hReply
  rfl

/-! ## Operations and mounts as tokens -/

/-- The `subject_token` column of `OPERATION_SPECS`. -/
def subjectTokens : List String :=
  ["lookup", "getattr", "readdir", "open", "read", "write", "create", "rename", "unlink", "mkdir",
    "rmdir", "statfs", "getxattr", "setxattr", "listxattr", "removexattr", "release", "readlink",
    "symlink", "hardlink", "setattr", "flush", "fsync", "fsyncdir", "getlk", "setlk", "flock",
    "copy_file_range", "fallocate", "lseek"]

def asStr (operation : Operation) : String :=
  subjectTokens.getD (operation.wireValue.toNat - 1) ""

def fromSubjectToken (token : Text) : Option Operation :=
  Operation.all.find? fun operation => asBytes (asStr operation) = token

/-- The byte between two tokens. -/
def dot : UInt8 := 46

theorem fromSubjectToken_asStr (operation : Operation) :
    fromSubjectToken (asBytes (asStr operation)) = some operation ∧
      dot ∉ asBytes (asStr operation) := by
  cases operation <;> decide +kernel

/-- The crate `hex`, with what is assumed of it: a round trip, two lower-case digits for each
byte. -/
structure HexCrate where
  encode : Text → Text
  decode : Text → Option Text
  round_trip : ∀ bytes, decode (encode bytes) = some bytes
  length : ∀ bytes, (encode bytes).length = 2 * bytes.length
  digits : ∀ bytes, ∀ c ∈ encode bytes, (48 ≤ c ∧ c ≤ 57) ∨ (97 ≤ c ∧ c ≤ 102)

variable (hex : HexCrate)

def encodeMountToken (mount : String) : Text := hex.encode (asBytes mount)

variable {hex}

theorem notMem_encodeMountToken {c : UInt8} (hc : ¬ ((48 ≤ c ∧ c ≤ 57) ∨ (97 ≤ c ∧ c ≤ 102)))
    (mount : String) : c ∉ encodeMountToken hex mount :=
  fun h => hc (hex.digits _ c h)

theorem dot_notMem_encodeMountToken (mount : String) : dot ∉ encodeMountToken hex mount :=
  notMem_encodeMountToken (by decide) mount

theorem encodeMountToken_injective : Function.Injective (encodeMountToken hex) := by
  intro m n h
  have hBytes := congrArg hex.decode h
  simp only [encodeMountToken, hex.round_trip, Option.some.injEq] at hBytes
  exact asBytes_injective hBytes

variable (hex)

def decodeMountToken (token : Text) : Option String := do
  if token.isEmpty then none
  let bytes ← hex.decode token
  let mount ← String.fromUTF8? bytes.toByteArray
  if mount.isEmpty then none else some mount

variable {hex}

theorem decodeMountToken_encodeMountToken {mount : String} (h : mount ≠ "") :
    decodeMountToken hex (encodeMountToken hex mount) = some mount := by
  have hBytes : (asBytes mount).toByteArray = mount.toByteArray := by
    apply ByteArray.ext
    simp [asBytes]
  have hText : String.fromUTF8? mount.toByteArray = some mount := dif_pos mount.isValidUTF8
  have hToken : hex.encode (asBytes mount) ≠ [] := fun hNil => by
    have hLength := hex.length (asBytes mount)
    rw [hNil, length_nil, eq_comm, Nat.mul_eq_zero, length_eq_zero_iff] at hLength
    exact h (asBytes_injective (hLength.resolve_left (by decide)))
  simp [decodeMountToken, encodeMountToken, hToken, hex.round_trip, hBytes, hText, h]

/-! ## Subjects -/

variable (hex)

def commandSubject (mount : String) (command : Text) : Text :=
  asBytes "fabricfs.v1" ++ dot :: (encodeMountToken hex mount ++ dot :: command)

def querySubject (mount : String) (query : Text) : Text :=
  asBytes "fabricfs.v1" ++
    dot :: (encodeMountToken hex mount ++ dot :: (asBytes "query" ++ dot :: query))

def subscriptionSubject (mount : String) : Text :=
  asBytes "fabricfs.v1" ++ dot :: (encodeMountToken hex mount ++ dot :: asBytes ">")

def invalidationSubject (mount : String) : Text :=
  asBytes "fabricfs.invalidate.v1" ++ dot :: encodeMountToken hex mount

def commandSubjectParts (subject : Text) : Option (String × Operation) := do
  let versioned ← Lib.stripPrefix (asBytes "fabricfs.v1") subject
  let rest ← Lib.stripPrefix [dot] versioned
  match rest.splitOn dot with
  | [mountToken, operationToken] =>
    let mount ← decodeMountToken hex mountToken
    let operation ← fromSubjectToken operationToken
    pure (mount, operation)
  | _ => none

variable {hex}

theorem commandSubjectParts_commandSubject {mount : String} (h : mount ≠ "")
    (operation : Operation) :
    commandSubjectParts hex (commandSubject hex mount (asBytes (asStr operation))) =
      some (mount, operation) := by
  have hOperation := fromSubjectToken_asStr operation
  have hVersioned : ∀ command : Text, Lib.stripPrefix (asBytes "fabricfs.v1")
      (commandSubject hex mount command) = some _ := fun _ => Lib.stripPrefix_eq_some.mpr rfl
  have hRest : ∀ rest : Text, Lib.stripPrefix [dot] (dot :: rest) = some rest := fun _ =>
    Lib.stripPrefix_eq_some.mpr rfl
  simp [commandSubjectParts, hVersioned, hRest, splitOn_append_cons_self, hOperation,
    splitOn_eq_singleton, dot_notMem_encodeMountToken, decodeMountToken_encodeMountToken h]

/-- The subjects of a mount. -/
inductive Subject where
  | command (mount : String) (operation : Operation)
  | query (mount text : String)
  | invalidation (mount : String)

namespace Subject

def mount : Subject → String
  | command m _ | query m _ | invalidation m => m

def text (hex : HexCrate) : Subject → Text
  | command m operation => commandSubject hex m (asBytes (asStr operation))
  | query m q => querySubject hex m (asBytes q)
  | invalidation m => invalidationSubject hex m

end Subject

theorem splitOn_literals :
    (asBytes "fabricfs.v1").splitOn dot = [asBytes "fabricfs", asBytes "v1"] ∧
    (asBytes "fabricfs.invalidate.v1").splitOn dot =
      [asBytes "fabricfs", asBytes "invalidate", asBytes "v1"] ∧
    (asBytes "query").splitOn dot = [asBytes "query"] ∧
    (asBytes ">").splitOn dot = [asBytes ">"] := by
  decide +kernel

/-- The tokens of a subject. -/
theorem Subject.splitOn_text (s : Subject) : (s.text hex).splitOn dot =
    match s with
    | command m operation =>
      [asBytes "fabricfs", asBytes "v1", encodeMountToken hex m, asBytes (asStr operation)]
    | query m q => asBytes "fabricfs" :: asBytes "v1" :: encodeMountToken hex m ::
        asBytes "query" :: (asBytes q).splitOn dot
    | invalidation m =>
      [asBytes "fabricfs", asBytes "invalidate", asBytes "v1", encodeMountToken hex m] := by
  have hMount (m) : (encodeMountToken hex m).splitOn dot = [encodeMountToken hex m] :=
    splitOn_eq_singleton (dot_notMem_encodeMountToken m)
  have hOperation (o) := splitOn_eq_singleton (fromSubjectToken_asStr o).2
  cases s <;> simp [text, commandSubject, querySubject, invalidationSubject,
    splitOn_append_cons_self, splitOn_literals, hMount, hOperation]

theorem Subject.text_injective : Function.Injective (Subject.text hex) := by
  have hVersion : asBytes "v1" ≠ asBytes "invalidate" := by decide +kernel
  have hQuery : Function.Injective fun q => (asBytes q).splitOn dot :=
    (Function.LeftInverse.injective fun _ => intercalate_splitOn dot).comp asBytes_injective
  have hToken : Function.Injective fun operation => asBytes (asStr operation) :=
    fun _ _ h => by simpa [(fromSubjectToken_asStr _).1] using congrArg fromSubjectToken h
  intro s t h
  have hTokens := congrArg (List.splitOn dot) h
  rw [splitOn_text, splitOn_text] at hTokens
  cases s <;> cases t <;>
    simp_all [hVersion.symm, splitOn_ne_nil, encodeMountToken_injective.eq_iff,
      hQuery.eq_iff, hToken.eq_iff]

/-- The broker's matching of a subject against a pattern, with what is assumed of it: a token of
the pattern that is no wildcard stands for itself. -/
structure Broker where
  accepts : Text → Text → Bool
  literal : ∀ pattern subject, accepts pattern subject = true → ∀ (i : Nat) token,
    (pattern.splitOn dot)[i]? = some token → token ≠ asBytes "*" → token ≠ asBytes ">" →
    (subject.splitOn dot)[i]? = some token

theorem subscription_matches {broker : Broker} {mount : String} {s : Subject}
    (h : broker.accepts (subscriptionSubject hex mount) (s.text hex) = true) :
    s.mount = mount := by
  have hPattern : (subscriptionSubject hex mount).splitOn dot =
      [asBytes "fabricfs", asBytes "v1", encodeMountToken hex mount, asBytes ">"] := by
    simp [subscriptionSubject, splitOn_append_cons_self, splitOn_literals,
      splitOn_eq_singleton (dot_notMem_encodeMountToken mount)]
  have hLiteral := broker.literal _ _ h
  have hOther (c : UInt8) (hc) : encodeMountToken hex mount ≠ [c] := fun hEq =>
    notMem_encodeMountToken hc mount (hEq ▸ mem_singleton_self c)
  have hVersion := hLiteral 1 (asBytes "v1") (by rw [hPattern]; rfl) (by decide +kernel)
    (by decide +kernel)
  have hMount := hLiteral 2 (encodeMountToken hex mount) (by rw [hPattern]; rfl)
    (hOther 42 (by decide)) (hOther 62 (by decide))
  rw [Subject.splitOn_text] at hVersion hMount
  cases s with
  | command m operation => exact encodeMountToken_injective (Option.some.inj hMount)
  | query m q => exact encodeMountToken_injective (Option.some.inj hMount)
  | invalidation m => exact absurd (Option.some.inj hVersion) (by decide +kernel)

/-- Signed bytes, subjects, received commands and subscriptions are unambiguous, whatever the
crate `hex` and the broker do beyond what is assumed of them. -/
theorem signed_and_routed_unambiguous (hex : HexCrate) (broker : Broker) :
    Function.Injective canonicalSigningBytes ∧ Function.Injective (Subject.text hex) ∧
    (∀ (mount : String) (operation : Operation), mount ≠ "" →
      commandSubjectParts hex ((Subject.command mount operation).text hex) =
        some (mount, operation)) ∧
    ∀ (mount : String) (s : Subject), s.mount ≠ mount →
      broker.accepts (subscriptionSubject hex mount) (s.text hex) = false :=
  ⟨canonicalSigningBytes_injective, Subject.text_injective,
    fun _ operation h => commandSubjectParts_commandSubject h operation,
    fun _ _ h => Bool.eq_false_iff.mpr fun hMatch => h (subscription_matches hMatch)⟩

/-! ### A crate and a broker as documented -/

def hexDigit (n : Nat) : UInt8 := UInt8.ofNat (if n < 10 then 48 + n else 87 + n)

def hexEncode (bytes : Text) : Text :=
  bytes.flatMap fun b => [hexDigit (b.toNat / 16), hexDigit (b.toNat % 16)]

def hexValue (c : UInt8) : Option Nat :=
  if 48 ≤ c ∧ c ≤ 57 then some (c.toNat - 48)
  else if 65 ≤ c ∧ c ≤ 70 then some (c.toNat - 55)
  else if 97 ≤ c ∧ c ≤ 102 then some (c.toNat - 87)
  else none

def hexDecode : Text → Option Text
  | [] => some []
  | [_] => none
  | a :: b :: rest => do
    let high ← hexValue a
    let low ← hexValue b
    let bytes ← hexDecode rest
    pure (UInt8.ofNat (16 * high + low) :: bytes)

theorem hexDigit_spec {n : Nat} (hn : n < 16) : hexValue (hexDigit n) = some n ∧
    ((48 ≤ hexDigit n ∧ hexDigit n ≤ 57) ∨ (97 ≤ hexDigit n ∧ hexDigit n ≤ 102)) := by
  interval_cases n <;> decide

theorem hexDecode_hexEncode (bytes : Text) : hexDecode (hexEncode bytes) = some bytes := by
  induction bytes with
  | nil => rfl
  | cons b rest ih =>
    have hb := b.toNat_lt
    have hHigh := (hexDigit_spec (n := b.toNat / 16) (by omega)).1
    have hLow := (hexDigit_spec (n := b.toNat % 16) (by omega)).1
    have hByte : 16 * (b.toNat / 16) + b.toNat % 16 = b.toNat := by omega
    have hCons : hexEncode (b :: rest) =
      hexDigit (b.toNat / 16) :: hexDigit (b.toNat % 16) :: hexEncode rest := rfl
    rw [hCons, hexDecode, hHigh, hLow, ih]
    simp only [bind, Option.bind, hByte, UInt8.ofNat_toNat, pure]

def documentedHex : HexCrate where
  encode := hexEncode
  decode := hexDecode
  round_trip := hexDecode_hexEncode
  length bytes := by simp [hexEncode, length_flatMap, Nat.mul_comm]
  digits bytes c hc := by
    obtain ⟨b, -, hb⟩ := mem_flatMap.mp hc
    have := b.toNat_lt
    simp only [mem_cons, not_mem_nil, or_false] at hb
    rcases hb with rfl | rfl <;> exact (hexDigit_spec (by omega)).2

/-- The tokens of a subject against those of a pattern: `*` stands for one token, and a last
`>` for one or more. -/
def natsMatches : List Text → List Text → Bool
  | [], tokens => tokens.isEmpty
  | _ :: _, [] => false
  | pattern :: patterns, token :: tokens =>
    (pattern = asBytes ">" && patterns.isEmpty) ||
      (pattern = asBytes "*" || pattern = token) && natsMatches patterns tokens

theorem natsMatches_literal {patterns tokens : List Text} (h : natsMatches patterns tokens = true)
    {i : Nat} {token : Text} (hToken : patterns[i]? = some token) (hStar : token ≠ asBytes "*")
    (hRest : token ≠ asBytes ">") : tokens[i]? = some token := by
  induction patterns, tokens using natsMatches.induct generalizing i with
  | case1 tokens => cases hToken
  | case2 pattern patterns => cases h
  | case3 pattern patterns other tokens ih =>
    cases i with
    | zero =>
      obtain rfl := Option.some.inj hToken
      simp_all [natsMatches]
    | succ i =>
      have hNil : patterns ≠ [] := by
        rintro rfl
        cases hToken
      simp only [natsMatches, Bool.or_eq_true, Bool.and_eq_true, List.isEmpty_iff, hNil,
        and_false, false_or] at h
      exact ih h.2 hToken

def documentedBroker : Broker where
  accepts pattern subject := natsMatches (pattern.splitOn dot) (subject.splitOn dot)
  literal _ _ h _ _ := natsMatches_literal h

/-- A command for the mount `a` arrives there and not at the mount `b`. -/
theorem command_routed :
    let subject := (Subject.command "a" .read).text documentedHex
    commandSubjectParts documentedHex subject = some ("a", .read) ∧
      documentedBroker.accepts (subscriptionSubject documentedHex "a") subject = true ∧
      documentedBroker.accepts (subscriptionSubject documentedHex "b") subject = false := by
  obtain ⟨-, -, hParts, hRouted⟩ := signed_and_routed_unambiguous documentedHex documentedBroker
  exact ⟨hParts "a" .read (by decide), by decide +kernel, hRouted "b" _ (by decide)⟩

end FabricFs.Transport
