namespace ModuleHost
namespace Text

/-!
# UTF-8

`head?` reads the scalar value at the front of a byte string: the shortest form
only, no surrogates, nothing above `0x10ffff`.  `leading` goes on reading until
the bytes stop being UTF-8, so it yields the longest decodable beginning, and
`decode?` accepts the byte strings that it reads to the end.
-/

/-- The payload of a continuation byte `10xxxxxx`. -/
def continuation? (byte : UInt8) : Option Nat :=
  if byte.toNat / 64 = 2 then some (byte.toNat % 64) else none

/-- A scalar value that needs the number of bytes it was written with. -/
def scalar? (least number : Nat) : Option Char :=
  if least ≤ number ∧ number.isValidChar then some (Char.ofNat number) else none

/-- The character that the bytes begin with, and the bytes after it. -/
def head? : List UInt8 → Option (Char × List UInt8)
  | [] => none
  | first :: rest =>
    let lead := first.toNat
    if lead < 0x80 then some (Char.ofNat lead, rest)
    else if 0xC0 ≤ lead ∧ lead < 0xE0 then
      match rest with
      | second :: rest => do
        let low ← continuation? second
        let char ← scalar? 0x80 ((lead - 0xC0) * 64 + low)
        return (char, rest)
      | _ => none
    else if 0xE0 ≤ lead ∧ lead < 0xF0 then
      match rest with
      | second :: third :: rest => do
        let middle ← continuation? second
        let low ← continuation? third
        let char ← scalar? 0x800 (((lead - 0xE0) * 64 + middle) * 64 + low)
        return (char, rest)
      | _ => none
    else if 0xF0 ≤ lead ∧ lead < 0xF8 then
      match rest with
      | second :: third :: fourth :: rest => do
        let high ← continuation? second
        let middle ← continuation? third
        let low ← continuation? fourth
        let char ← scalar? 0x10000 ((((lead - 0xF0) * 64 + high) * 64 + middle) * 64 + low)
        return (char, rest)
      | _ => none
    else none

/-- Reading a character consumes at least one byte. -/
theorem length_of_head? {bytes rest : List UInt8} {char : Char}
    (h : head? bytes = some (char, rest)) : rest.length < bytes.length := by
  cases bytes with
  | nil => simp [head?] at h
  | cons first tail =>
      simp only [head?] at h
      split at h
      · simp only [Option.some.injEq, Prod.mk.injEq] at h
        simp [← h.2]
      · split at h
        · split at h
          · simp only [Option.bind_eq_bind, Option.bind_eq_some_iff, Option.pure_def,
              Option.some.injEq, Prod.mk.injEq] at h
            obtain ⟨_, _, _, _, _, rfl⟩ := h
            simp only [List.length_cons]
            omega
          · simp at h
        · split at h
          · split at h
            · simp only [Option.bind_eq_bind, Option.bind_eq_some_iff, Option.pure_def,
                Option.some.injEq, Prod.mk.injEq] at h
              obtain ⟨_, _, _, _, _, _, _, rfl⟩ := h
              simp only [List.length_cons]
              omega
            · simp at h
          · split at h
            · split at h
              · simp only [Option.bind_eq_bind, Option.bind_eq_some_iff, Option.pure_def,
                  Option.some.injEq, Prod.mk.injEq] at h
                obtain ⟨_, _, _, _, _, _, _, _, _, rfl⟩ := h
                simp only [List.length_cons]
                omega
              · simp at h
            · simp at h

/-- The characters of the longest beginning that is UTF-8. -/
def leading (bytes : List UInt8) : List Char :=
  match _ : head? bytes with
  | none => []
  | some (char, rest) => char :: leading rest
termination_by bytes.length
decreasing_by exact length_of_head? (by assumption)

/-- The bytes of a text. -/
def encode (text : String) : List UInt8 :=
  text.toList.flatMap String.utf8EncodeChar

/-- The text that the longest UTF-8 beginning of the bytes spells. -/
def decodeLeading (bytes : List UInt8) : String :=
  String.ofList (leading bytes)

/-- The text that the bytes spell, if all of them are UTF-8. -/
def decode? (bytes : List UInt8) : Option String :=
  let text := decodeLeading bytes
  if (encode text).length = bytes.length then some text else none

end Text
end ModuleHost
