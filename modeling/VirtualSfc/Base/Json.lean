import VirtualSfc.Base.Text

/-! Printer and parser pairs for canonical JSON, built from combinators. A
format parses its own output in front of any continuation, so formats compose
without looking inside each other. -/
namespace VirtualSfc.Base.Json
open Text (hexDigit)

structure Format (α : Type) where
  print : α → List Char
  parse : List Char → Option (α × List Char)
  parse_print : ∀ value rest, parse (print value ++ rest) = some (value, rest)

def dropToken : List Char → List Char → Option (List Char)
  | [], input => some input
  | _ :: _, [] => none
  | expected :: token, char :: input =>
      if expected = char then dropToken token input else none

@[simp] theorem dropToken_append (token rest : List Char) :
    dropToken token (token ++ rest) = some rest := by
  induction token with
  | nil => rfl
  | cons expected token ih => simp [dropToken, ih]

/-! Strings, with the escapes of Go's encoder: quotes, backslashes, control
characters, the HTML metacharacters and the two line separators. -/

def quote : Char := Char.ofNat 34
def backslash : Char := Char.ofNat 92

def hexValue (char : Char) : Option Nat :=
  "0123456789abcdef".toList.findIdx? (· = char)

theorem hexValue_hexDigit : ∀ nibble < 16, hexValue (hexDigit nibble) = some nibble := by
  decide

def shortEscapes : List (Char × Char) :=
  [(quote, quote), (backslash, backslash), ('\n', 'n'), ('\r', 'r'), ('\t', 't')]

def needsCode (char : Char) : Bool :=
  char.toNat < 32 || [38, 60, 62, 0x2028, 0x2029].contains char.toNat

def codeEscape (code : Nat) : List Char :=
  [backslash, 'u', hexDigit (code / 4096), hexDigit (code / 256 % 16),
    hexDigit (code / 16 % 16), hexDigit (code % 16)]

def escape (char : Char) : List Char :=
  match shortEscapes.lookup char with
  | some letter => [backslash, letter]
  | none => if needsCode char then codeEscape char.toNat else [char]

def parseCode : List Char → Option (Char × List Char)
  | first :: second :: third :: fourth :: rest => do
      let first ← hexValue first
      let second ← hexValue second
      let third ← hexValue third
      let fourth ← hexValue fourth
      pure (Char.ofNat (4096 * first + 256 * second + 16 * third + fourth), rest)
  | _ => none

def parseUnit : List Char → Option (Char × List Char)
  | [] => none
  | head :: rest =>
      if head = backslash then
        match rest with
        | [] => none
        | letter :: rest =>
            if letter = 'u' then parseCode rest
            else (shortEscapes.find? (·.2 = letter)).map fun entry => (entry.1, rest)
      else some (head, rest)

private theorem lookup_shortEscapes {char letter : Char}
    (h : shortEscapes.lookup char = some letter) :
    letter ≠ 'u' ∧ (shortEscapes.find? (·.2 = letter)).map (·.1) = some char := by
  have hall : ∀ entry ∈ shortEscapes, entry.2 ≠ 'u' ∧
      (shortEscapes.find? (·.2 = entry.2)).map (·.1) = some entry.1 := by
    decide
  obtain ⟨left, right, hsplit, _⟩ := List.lookup_eq_some_iff.mp h
  exact hall (char, letter) (by rw [hsplit]; simp)

private theorem needsCode_lt {char : Char} (h : needsCode char = true) :
    char.toNat < 65536 := by
  simp only [needsCode, Bool.or_eq_true, decide_eq_true_eq, List.contains_iff_mem,
    List.mem_cons, List.not_mem_nil, or_false] at h
  omega

private theorem parseCode_codeEscape {code : Nat} (hcode : code < 65536) (rest : List Char) :
    parseCode ((codeEscape code ++ rest).drop 2) = some (Char.ofNat code, rest) := by
  have hfirst := hexValue_hexDigit (code / 4096) (by omega)
  have hsecond := hexValue_hexDigit (code / 256 % 16) (by omega)
  have hthird := hexValue_hexDigit (code / 16 % 16) (by omega)
  have hfourth := hexValue_hexDigit (code % 16) (by omega)
  have hsum : 4096 * (code / 4096) + 256 * (code / 256 % 16) +
      16 * (code / 16 % 16) + code % 16 = code := by omega
  simp [codeEscape, parseCode, hfirst, hsecond, hthird, hfourth, hsum]

theorem parseUnit_escape (char : Char) (rest : List Char) :
    parseUnit (escape char ++ rest) = some (char, rest) := by
  unfold escape
  cases hlookup : shortEscapes.lookup char with
  | some letter =>
      obtain ⟨hletter, hfind⟩ := lookup_shortEscapes hlookup
      cases hentry : shortEscapes.find? (·.2 = letter) with
      | none => simp [hentry] at hfind
      | some entry =>
          rw [hentry] at hfind
          simp [parseUnit, hletter, hentry, Option.some.inj hfind]
  | none =>
      by_cases hcode : needsCode char = true
      · have hparse := parseCode_codeEscape (needsCode_lt hcode) rest
        simp only [hcode, if_true]
        simpa [codeEscape, parseUnit] using hparse
      · have hplain : char ≠ backslash := by
          rintro rfl
          simp [shortEscapes, quote, backslash] at hlookup
        simp [hcode, parseUnit, hplain]

theorem escape_ne_nil (char : Char) : escape char ≠ [] := by
  unfold escape
  split
  · simp
  · split <;> simp [codeEscape]

theorem escape_head_ne_quote (char : Char) : (escape char).head? ≠ some quote := by
  unfold escape
  cases hlookup : shortEscapes.lookup char with
  | some letter =>
      simp only [List.head?_cons]
      decide
  | none =>
      by_cases hcode : needsCode char = true
      · simp only [hcode, if_true, codeEscape, List.head?_cons]
        decide
      · have hplain : char ≠ quote := by
          rintro rfl
          simp [shortEscapes] at hlookup
        simpa [hcode] using hplain

/-- Read up to the closing quote. Every character takes at least one symbol, so
the length of the input is enough fuel. -/
def parseBody : Nat → List Char → Option (List Char × List Char)
  | 0, _ => none
  | fuel + 1, input =>
      if input.head? = some quote then some ([], input.tail)
      else do
        let (char, rest) ← parseUnit input
        let (body, rest) ← parseBody fuel rest
        pure (char :: body, rest)

theorem parseBody_escape (body rest : List Char) (fuel : Nat) (hfuel : body.length < fuel) :
    parseBody fuel (body.flatMap escape ++ quote :: rest) = some (body, rest) := by
  induction body generalizing fuel with
  | nil =>
      obtain ⟨fuel, rfl⟩ := Nat.exists_eq_succ_of_ne_zero (Nat.ne_of_gt hfuel)
      simp [parseBody]
  | cons char body ih =>
      obtain ⟨fuel, rfl⟩ := Nat.exists_eq_succ_of_ne_zero (Nat.ne_zero_of_lt hfuel)
      have htail := ih fuel (by simpa using hfuel)
      have hhead : (escape char ++ (body.flatMap escape ++ quote :: rest)).head? ≠ some quote := by
        rw [List.head?_append_of_ne_nil _ (escape_ne_nil char)]
        exact escape_head_ne_quote char
      rw [List.flatMap_cons, List.append_assoc, parseBody, if_neg hhead,
        parseUnit_escape]
      simp [htail]

private theorem length_le_flatMap_escape (body : List Char) :
    body.length ≤ (body.flatMap escape).length := by
  induction body with
  | nil => simp
  | cons char body ih =>
      have hpos := List.length_pos_of_ne_nil (escape_ne_nil char)
      rw [List.flatMap_cons, List.length_append, List.length_cons]
      omega

def string : Format String where
  print text := quote :: text.toList.flatMap escape ++ [quote]
  parse input :=
    match dropToken [quote] input with
    | none => none
    | some body => (parseBody body.length body).map fun result =>
        (String.ofList result.1, result.2)
  parse_print := by
    intro text rest
    have hlength := length_le_flatMap_escape text.toList
    have hbody := parseBody_escape text.toList rest
      (text.toList.flatMap escape ++ quote :: rest).length (by
        rw [List.length_append, List.length_cons]
        omega)
    simp only [List.cons_append, List.append_assoc, List.nil_append, dropToken, if_true,
      hbody, Option.map_some, String.ofList_toList]

/-! Arrays and two-field objects. -/

variable {α β : Type}

def printTail (item : Format α) : List α → List Char
  | [] => [']']
  | value :: rest => ',' :: item.print value ++ printTail item rest

def parseTail (item : Format α) : Nat → List Char → Option (List α × List Char)
  | 0, _ => none
  | fuel + 1, input =>
      match dropToken [']'] input with
      | some rest => some ([], rest)
      | none => do
          let input ← dropToken [','] input
          let (value, input) ← item.parse input
          let (values, input) ← parseTail item fuel input
          pure (value :: values, input)

theorem parseTail_printTail (item : Format α) (values : List α) (rest : List Char)
    (fuel : Nat) (hfuel : values.length < fuel) :
    parseTail item fuel (printTail item values ++ rest) = some (values, rest) := by
  induction values generalizing fuel with
  | nil =>
      obtain ⟨fuel, rfl⟩ := Nat.exists_eq_succ_of_ne_zero (Nat.ne_of_gt hfuel)
      simp [printTail, parseTail, dropToken]
  | cons value values ih =>
      obtain ⟨fuel, rfl⟩ := Nat.exists_eq_succ_of_ne_zero (Nat.ne_zero_of_lt hfuel)
      have htail := ih fuel (by simpa using hfuel)
      simp [printTail, parseTail, dropToken, item.parse_print, htail]

private theorem length_lt_printTail (item : Format α) (values : List α) :
    values.length < (printTail item values).length := by
  induction values with
  | nil => simp [printTail]
  | cons value values ih =>
      simp only [printTail, List.length_cons, List.cons_append, List.length_append]
      omega

/-- Comma-separated values in brackets. The items must not look like the
closing bracket of an empty array. -/
def array (item : Format α)
    (hitem : ∀ value rest, dropToken [']'] (item.print value ++ rest) = none) :
    Format (List α) where
  print
    | [] => ['[', ']']
    | value :: values => '[' :: item.print value ++ printTail item values
  parse input := do
    let input ← dropToken ['['] input
    match dropToken [']'] input with
    | some rest => some ([], rest)
    | none => do
        let (value, input) ← item.parse input
        let (values, input) ← parseTail item input.length input
        pure (value :: values, input)
  parse_print := by
    intro values rest
    cases values with
    | nil => simp [dropToken]
    | cons value values =>
        have hlength := length_lt_printTail item values
        have htail := parseTail_printTail item values rest
          (printTail item values ++ rest).length (by
            rw [List.length_append]
            omega)
        have hopen := hitem value (printTail item values ++ rest)
        simp only [dropToken, List.cons_append, List.append_assoc, if_true,
          Option.bind_eq_bind, Option.bind_some, hopen, item.parse_print, htail]
        rfl

def object (firstKey secondKey : String) (first : Format α) (second : Format β) :
    Format (α × β) where
  print value :=
    '{' :: string.print firstKey ++ ':' :: first.print value.1 ++
      ',' :: string.print secondKey ++ ':' :: second.print value.2 ++ ['}']
  parse input := do
    let input ← dropToken ('{' :: string.print firstKey ++ [':']) input
    let (left, input) ← first.parse input
    let input ← dropToken (',' :: string.print secondKey ++ [':']) input
    let (right, input) ← second.parse input
    let input ← dropToken ['}'] input
    pure ((left, right), input)
  parse_print := by
    intro value rest
    have hfirst (tail : List Char) :
        dropToken ('{' :: string.print firstKey ++ [':'])
          ('{' :: (string.print firstKey ++ ':' :: tail)) = some tail := by
      simpa using dropToken_append ('{' :: string.print firstKey ++ [':']) tail
    have hsecond (tail : List Char) :
        dropToken (',' :: string.print secondKey ++ [':'])
          (',' :: (string.print secondKey ++ ':' :: tail)) = some tail := by
      simpa using dropToken_append (',' :: string.print secondKey ++ [':']) tail
    simp only [List.cons_append, List.append_assoc, List.nil_append,
      Option.bind_eq_bind] at hfirst hsecond ⊢
    rw [hfirst, Option.bind_some, first.parse_print, Option.bind_some, hsecond,
      Option.bind_some, second.parse_print]
    simp [dropToken]

def Format.map (format : Format α) (forward : α → β) (backward : β → α)
    (hforward : ∀ value, forward (backward value) = value) : Format β where
  print value := format.print (backward value)
  parse input := (format.parse input).map fun result => (forward result.1, result.2)
  parse_print := by
    intro value rest
    rw [format.parse_print, Option.map_some, hforward]

def Format.encode (format : Format α) (value : α) : String :=
  String.ofList (format.print value)

def Format.decode (format : Format α) (text : String) : Option α :=
  match format.parse text.toList with
  | some (value, []) => some value
  | _ => none

theorem Format.decode_encode (format : Format α) (value : α) :
    format.decode (format.encode value) = some value := by
  have hparse := format.parse_print value []
  rw [List.append_nil] at hparse
  simp [Format.decode, Format.encode, hparse]

end VirtualSfc.Base.Json
