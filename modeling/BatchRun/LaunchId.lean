import BatchRun.Json.Codec
import BatchRun.Json.Token
import BatchRun.Text.Blank

/-! # Launch identifiers

Every launch request has an identifier of 128 bits, written as a UUID: 32 hexadecimal digits in
five groups. It is read in any case, with or without hyphens, in braces, or as a URN. Only the
spelling without anything around the digits may leave the hyphens out.
-/

namespace BatchRun

structure LaunchId where
  value : BitVec 128
deriving DecidableEq, Repr

namespace LaunchId

/-- The identifier in lower case with hyphens. -/
def text (id : LaunchId) : String :=
  let digits := Nat.toDigits 16 id.value.toNat
  let digits := List.replicate (32 - digits.length) '0' ++ digits
  let group (start count : Nat) : String := String.ofList ((digits.drop start).take count)
  "-".intercalate [group 0 8, group 8 4, group 12 4, group 16 4, group 20 12]

/-- Reads exactly 32 hexadecimal digits. -/
def ofDigits? (chars : List Char) : Option LaunchId := do
  guard (chars.length = 32)
  let digits ← chars.mapM Json.hexDigit?
  return ⟨BitVec.ofNat _ (digits.foldl (fun value digit => 16 * value + digit) 0)⟩

/-- Reads digits with hyphens between the five groups. -/
def ofGroups? (chars : List Char) : Option LaunchId := do
  guard (chars.length = 36)
  guard ([8, 13, 18, 23].all fun place => chars[place]? = some '-')
  ofDigits? (chars.filter (· != '-'))

/-- Reads an identifier in any of its spellings. -/
def read? (text : String) : Option LaunchId :=
  let chars := text.toList
  if chars.length = 32 then ofDigits? chars
  else if chars.length = 38 ∧ chars.head? = some '\x7b' ∧ chars.getLast? = some '\x7d' then
    ofGroups? (chars.drop 1).dropLast
  else if Text.lowerAscii (String.ofList (chars.take 9)) = "urn:uuid:" then
    ofGroups? (chars.drop 9)
  else ofGroups? chars

instance : JsonEncode LaunchId := ⟨fun id => some (.string id.text)⟩
instance : JsonDecode LaunchId where
  decode? document := (decode? document).bind read?

end LaunchId

end BatchRun
