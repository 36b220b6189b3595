import Mathlib

/-! Text conversions of the kind every component here needs: the bytes of a
string, the lower-case hexadecimal form of a byte string, decimal numerals
used as suffixes, and quoted text. Naming schemes rest on the injectivity of
the first three. -/
namespace VirtualSfc.Base.Text

def utf8 (text : String) : List UInt8 := text.toByteArray.data.toList

@[simp] theorem utf8_append (left right : String) :
    utf8 (left ++ right) = utf8 left ++ utf8 right := by
  simp [utf8]

theorem utf8_inj {left right : String} : utf8 left = utf8 right ↔ left = right := by
  constructor
  · intro h
    apply String.toByteArray_inj.mp
    apply ByteArray.ext
    exact Array.toList_inj.mp h
  · intro h
    rw [h]

def hexDigit (nibble : Nat) : Char :=
  "0123456789abcdef".toList.getD nibble '0'

def hexByte (byte : UInt8) : List Char :=
  [hexDigit (byte.toNat / 16), hexDigit (byte.toNat % 16)]

/-- `%x` -/
def hex (bytes : List UInt8) : String := String.ofList (bytes.flatMap hexByte)

def controlEscapes : List (Nat × Char) :=
  [(7, 'a'), (8, 'b'), (9, 't'), (10, 'n'), (11, 'v'), (12, 'f'), (13, 'r')]

/-- One character of `%q`. Above ASCII every character is taken to be printable. -/
def quoteChar (char : Char) : List Char :=
  if char = '"' ∨ char = '\\' then ['\\', char]
  else
    match controlEscapes.lookup char.toNat with
    | some letter => ['\\', letter]
    | none =>
        if char.toNat < 0x20 ∨ char.toNat = 0x7f then
          '\\' :: 'x' :: hexByte (UInt8.ofNat char.toNat)
        else [char]

/-- `%q` -/
def quote (text : String) : String :=
  "\"" ++ String.ofList (text.toList.flatMap quoteChar) ++ "\""

example : quote "net\t\"1\"" = "\"net\\t\\\"1\\\"\"" := by decide +kernel

private theorem hexDigit_injective :
    ∀ left < 16, ∀ right < 16, hexDigit left = hexDigit right → left = right := by
  decide

theorem hexByte_injective {left right : UInt8} (h : hexByte left = hexByte right) :
    left = right := by
  have hleft := left.toNat_lt
  have hright := right.toNat_lt
  simp only [hexByte, List.cons.injEq, and_true] at h
  have hhigh := hexDigit_injective _ (by omega) _ (by omega) h.1
  have hlow := hexDigit_injective _ (by omega) _ (by omega) h.2
  apply UInt8.toNat_inj.mp
  omega

private theorem flatMap_hexByte_injective (left right : List UInt8)
    (h : left.flatMap hexByte = right.flatMap hexByte) : left = right := by
  induction left generalizing right with
  | nil =>
      cases right with
      | nil => rfl
      | cons head tail => simp [hexByte] at h
  | cons head tail ih =>
      cases right with
      | nil => simp [hexByte] at h
      | cons head' tail' =>
          rw [List.flatMap_cons, List.flatMap_cons] at h
          obtain ⟨hhead, htail⟩ := List.append_inj h rfl
          rw [hexByte_injective hhead, ih tail' htail]

theorem hex_inj {left right : List UInt8} : hex left = hex right ↔ left = right := by
  constructor
  · intro h
    apply flatMap_hexByte_injective
    exact String.ofList_inj.mp h
  · intro h
    rw [h]

theorem hex_ne_empty {bytes : List UInt8} (h : bytes ≠ []) : hex bytes ≠ "" := by
  cases bytes with
  | nil => contradiction
  | cons head tail => simp [hex, hexByte]

theorem append_repr_inj {left right : String} {first second : Nat}
    (hfirst : first < 10) (hsecond : second < 10) :
    left ++ first.repr = right ++ second.repr ↔ left = right ∧ first = second := by
  constructor
  · intro h
    have hdigits : ∀ n < 10, n.repr.toList.length = 1 := by decide
    have hlist := congrArg String.toList h
    rw [String.toList_append, String.toList_append] at hlist
    obtain ⟨hleft, hright⟩ := List.append_inj' hlist
      ((hdigits first hfirst).trans (hdigits second hsecond).symm)
    exact ⟨String.toList_inj.mp hleft, Nat.repr_inj.mp (String.toList_inj.mp hright)⟩
  · rintro ⟨hleft, hright⟩
    rw [hleft, hright]

theorem append_separator_inj {α : Type*} {separator : α} {left right leftRest rightRest : List α}
    (hleft : separator ∉ left) (hright : separator ∉ right) :
    left ++ separator :: leftRest = right ++ separator :: rightRest ↔
      left = right ∧ leftRest = rightRest := by
  constructor
  · intro h
    induction left generalizing right with
    | nil =>
        cases right with
        | nil => simpa using h
        | cons head tail =>
            simp only [List.nil_append, List.cons_append, List.cons.injEq] at h
            exact absurd (h.1 ▸ List.mem_cons_self) hright
    | cons head tail ih =>
        cases right with
        | nil =>
            simp only [List.nil_append, List.cons_append, List.cons.injEq] at h
            exact absurd (h.1 ▸ List.mem_cons_self) hleft
        | cons head' tail' =>
            simp only [List.cons_append, List.cons.injEq] at h
            have hrest := ih (fun hmem => hleft (List.mem_cons_of_mem _ hmem))
              (fun hmem => hright (List.mem_cons_of_mem _ hmem)) h.2
            exact ⟨congrArg₂ List.cons h.1 hrest.1, hrest.2⟩
  · rintro ⟨hfield, hrest⟩
    rw [hfield, hrest]

end VirtualSfc.Base.Text
