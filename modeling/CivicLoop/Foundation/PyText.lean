import CivicLoop.Foundation.Json

/-!
# Strings as a program reads them

The part of the interpreter's string library that the checks of a payload use: white space, decimal
digits, the canonical text of a UUID, the escaping of HTML, and the forms of an email address and of
a UTC timestamp. The characters are those of Unicode 16.

## Main definitions

* `Text.render` : the characters of a string.
* `Message` : a JSON value whose strings are plain texts.
* `isSpace`, `decimalValue` : the characters that `str.isspace` and `str.isdecimal` know.
* `uuidText`, `isUuidText` : the canonical text of a UUID.
* `isRepeat`, `isHeaded`, `isPrefixed` : the forms of identifiers.
* `htmlEscape` : `html.escape`.
* `isEmailAddress`, `utcTimestamp` : two forms of strings.
-/

namespace CivicLoop

/-! ### Characters -/

/-- A character that `str.strip` removes. -/
def isSpace (c : Char) : Bool :=
  let n := c.toNat
  (9 ≤ n && n ≤ 13) || (28 ≤ n && n ≤ 32) || n == 0x85 || n == 0xA0 || n == 0x1680 ||
    (0x2000 ≤ n && n ≤ 0x200A) || n == 0x2028 || n == 0x2029 || n == 0x202F || n == 0x205F ||
    n == 0x3000

/-- The zeros of the scripts that have decimal digits. -/
def decimalZeros : List ℕ :=
  [0x30, 0x660, 0x6F0, 0x7C0, 0x966, 0x9E6, 0xA66, 0xAE6, 0xB66, 0xBE6, 0xC66, 0xCE6, 0xD66, 0xDE6,
    0xE50, 0xED0, 0xF20, 0x1040, 0x1090, 0x17E0, 0x1810, 0x1946, 0x19D0, 0x1A80, 0x1A90, 0x1B50,
    0x1BB0, 0x1C40, 0x1C50, 0xA620, 0xA8D0, 0xA900, 0xA9D0, 0xA9F0, 0xAA50, 0xABF0, 0xFF10,
    0x104A0, 0x10D30, 0x10D40, 0x11066, 0x110F0, 0x11136, 0x111D0, 0x112F0, 0x11450, 0x114D0,
    0x11650, 0x116C0, 0x116D0, 0x116DA, 0x11730, 0x118E0, 0x11950, 0x11BF0, 0x11C50, 0x11D50,
    0x11DA0, 0x11F50, 0x16130, 0x16A60, 0x16AC0, 0x16B50, 0x16D70, 0x1CCF0, 0x1D7CE, 0x1D7D8,
    0x1D7E2, 0x1D7EC, 0x1D7F6, 0x1E140, 0x1E2F0, 0x1E4F0, 0x1E5F1, 0x1E950, 0x1FBF0]

/-- The value of a character that `\d` matches. -/
def decimalValue (c : Char) : Option ℕ :=
  (decimalZeros.find? fun zero => zero ≤ c.toNat && c.toNat ≤ zero + 9).map (c.toNat - ·)

/-- The value of an ASCII digit. -/
def asciiDigit (c : Char) : Option ℕ := if c.isDigit then some (c.toNat - 48) else none

/-- A lowercase hexadecimal digit. -/
def isHexDigit (c : Char) : Bool := c.isDigit || ('a' ≤ c && c ≤ 'f')

/-! ### Texts -/

/-- The hexadecimal digits of a number, `length` of them. -/
def hexDigits : ℕ → ℕ → List Char
  | 0, _ => []
  | length + 1, n => hexDigits length (n / 16) ++ [Nat.digitChar (n % 16)]

theorem length_hexDigits (length n : ℕ) : (hexDigits length n).length = length := by
  induction length generalizing n with
  | zero => rfl
  | succ length ih => rw [hexDigits, List.length_append, ih, List.length_singleton]

theorem mem_hexDigits {length n : ℕ} {c : Char} (h : c ∈ hexDigits length n) :
    ∃ digit < 16, c = Nat.digitChar digit := by
  induction length generalizing n with
  | zero => cases h
  | succ length ih =>
    rcases List.mem_append.1 h with h | h
    · exact ih h
    · exact ⟨n % 16, Nat.mod_lt n (by decide), List.mem_singleton.1 h⟩

/-- The canonical text of a UUID. -/
def uuidText (u : Uuid) : String :=
  let digits := hexDigits 32 u
  String.ofList (digits.take 8 ++ '-' :: (digits.drop 8).take 4 ++ '-' :: (digits.drop 12).take 4 ++
    '-' :: (digits.drop 16).take 4 ++ '-' :: digits.drop 20)

/-- Whether the characters are the canonical text of a UUID. -/
def isUuidText (cs : List Char) : Bool :=
  cs.length == 36 &&
    cs.zipIdx.all fun (c, i) => if [8, 13, 18, 23].contains i then c == '-' else isHexDigit c

/-- The characters of a string. -/
def Text.render {D : Type} (H : Hash D) : Text D → List Char
  | .lit s => s.toList
  | .hex d => (H.hexText d).toList
  | .uuid u => (uuidText u).toList

/-- A JSON value whose strings are plain texts. -/
abbrev Message := Json Empty

/-- The characters of a plain text. -/
def Text.plain : Text Empty → String
  | .lit s => s
  | .uuid u => uuidText u

/-- The text of 64 hexadecimal digits. -/
def Text.isHex64 {D : Type} : Text D → Bool
  | .lit s => s.toList.length == 64 && s.toList.all isHexDigit
  | .hex _ => true
  | .uuid _ => false

/-- A string that `str.strip` leaves empty. -/
def Text.isBlank {D : Type} : Text D → Bool
  | .lit s => s.toList.all isSpace
  | _ => false

/-- Whether a character stands twice in a row. -/
def hasDouble (c : Char) : List Char → Bool
  | a :: b :: cs => (a == c && b == c) || hasDouble c (b :: cs)
  | _ => false

/-- `html.escape(s, quote=True)`, for one character. -/
def htmlEscape (c : Char) : List Char :=
  if c = '&' then "&amp;".toList
  else if c = '<' then "&lt;".toList
  else if c = '>' then "&gt;".toList
  else if c = '"' then "&quot;".toList
  -- the apostrophe
  else if c.toNat = 39 then "&#x27;".toList
  else [c]

/-! ### Forms -/

/-- Between `least` and `most` characters of a class. -/
def isRepeat (p : Char → Bool) (least most : ℕ) (cs : List Char) : Bool :=
  least ≤ cs.length && cs.length ≤ most && cs.all p

/-- A first character of one class, and between `least` and `most` of another. -/
def isHeaded (first p : Char → Bool) (least most : ℕ) : List Char → Bool
  | [] => false
  | c :: cs => first c && isRepeat p least most cs

/-- A fixed beginning, and between `least` and `most` characters of a class. -/
def isPrefixed (beginning : String) (p : Char → Bool) (least most : ℕ) (cs : List Char) : Bool :=
  beginning.toList.isPrefixOf cs && isRepeat p least most (cs.drop beginning.length)

/-- The class `[A-Za-z0-9_-]`. -/
def isTokenChar (c : Char) : Bool := c.isAlphanum || c == '_' || c == '-'

/-- The class `[A-Za-z0-9_.:-]`. -/
def isRunIdChar (c : Char) : Bool := isTokenChar c || c == '.' || c == ':'

/-- The characters of the local part of an email address. -/
def isLocalChar (c : Char) : Bool :=
  c.isAlphanum || ".!#$%&'*+/=?^_`\x7b|\x7d~-".toList.contains c

/-- The characters of the domain of an email address. -/
def isDomainChar (c : Char) : Bool := c.isAlphanum || c == '.' || c == '-'

/-- A local part, `@`, and a domain that ends in a dot and 2 to 63 letters. -/
def isEmailAddress (cs : List Char) : Bool :=
  let local_ := cs.takeWhile (· != '@')
  let domain := (cs.dropWhile (· != '@')).drop 1
  let top := (domain.reverse.takeWhile (· != '.')).reverse
  let rest := (domain.reverse.dropWhile (· != '.')).drop 1
  cs.contains '@' && local_ != [] && local_.all isLocalChar && domain.contains '.' &&
    rest != [] && rest.all isDomainChar && 2 ≤ top.length && top.length ≤ 63 && top.all Char.isAlpha

def isLeapYear (year : ℕ) : Bool := year % 4 == 0 && (year % 100 != 0 || year % 400 == 0)

def daysInMonth (year month : ℕ) : ℕ :=
  if month = 2 then if isLeapYear year then 29 else 28
  else if [4, 6, 9, 11].contains month then 30
  else 31

/-- The number of two digits, of which the first is ASCII and the second is one if `ascii` holds for
the first. -/
def twoDigits (ascii : ℕ → Bool) (a b : Char) : Option ℕ := do
  let tens ← asciiDigit a
  let units ← if ascii tens then asciiDigit b else decimalValue b
  return 10 * tens + units

/-- `strptime` of a string of the form `YYYY-MM-DDTHH:MM:SSZ`: the fields as one number, which grows
with time. -/
def utcTimestamp (s : String) : Option ℕ :=
  match s.toList with
  | [y₁, y₂, y₃, y₄, '-', m₁, m₂, '-', d₁, d₂, 'T', h₁, h₂, ':', n₁, n₂, ':', s₁, s₂, 'Z'] => do
    let y₁ ← decimalValue y₁
    let y₂ ← decimalValue y₂
    let y₃ ← decimalValue y₃
    let y₄ ← decimalValue y₄
    let year := 1000 * y₁ + 100 * y₂ + 10 * y₃ + y₄
    let month ← twoDigits (fun _ => true) m₁ m₂
    let day ← twoDigits (fun tens => tens == 0 || tens == 3) d₁ d₂
    let hour ← twoDigits (fun tens => tens == 2) h₁ h₂
    let minute ← twoDigits (fun _ => false) n₁ n₂
    let second ← twoDigits (fun _ => false) s₁ s₂
    if 1 ≤ year ∧ 1 ≤ month ∧ month ≤ 12 ∧ 1 ≤ day ∧ day ≤ daysInMonth year month ∧ hour ≤ 23 ∧
        minute ≤ 59 ∧ second ≤ 59 then
      some (((((year * 13 + month) * 32 + day) * 24 + hour) * 60 + minute) * 60 + second)
    else none
  | _ => none

end CivicLoop
