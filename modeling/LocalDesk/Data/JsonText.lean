import Mathlib

/-!
# JSON text

Compact JSON as a serializer writes it: no blanks, members in the order they are
given, strings with the short escapes where there is one.  A text is a list of
characters and its length is counted in bytes of UTF-8, with
`String.utf8Len`.

The lemmas say how long each form is.  The length of an object is the sum over
its members, so a change to one member changes the length by the difference of
the two members and by nothing else.
-/

namespace LocalDesk
namespace JsonText

open String (utf8Len)

def controlDigits (c : Char) : List Char :=
  [Nat.digitChar (c.toNat / 16), Nat.digitChar (c.toNat % 16)]

def escape (c : Char) : List Char :=
  if c = '"' then ['\\', '"']
  else if c = '\\' then ['\\', '\\']
  else if c = '\n' then ['\\', 'n']
  else if c = '\r' then ['\\', 'r']
  else if c = '\t' then ['\\', 't']
  else if c = '\x08' then ['\\', 'b']
  else if c = '\x0c' then ['\\', 'f']
  else if c.toNat < 32 then ['\\', 'u', '0', '0'] ++ controlDigits c
  else [c]

def quoted (text : String) : List Char := ['"'] ++ text.toList.flatMap escape ++ ['"']

def number : Int → List Char
  | .ofNat n => Nat.toDigits 10 n
  | .negSucc n => '-' :: Nat.toDigits 10 (n + 1)

def null : List Char := ['n', 'u', 'l', 'l']

/-- An optional value, absent as `null`. -/
def nullable {α : Type} (write : α → List Char) : Option α → List Char
  | none => null
  | some value => write value

def boolean (value : Bool) : List Char := (if value then "true" else "false").toList

def elements : List (List Char) → List Char
  | [] => []
  | [value] => value
  | value :: rest => value ++ [','] ++ elements rest

def array (values : List (List Char)) : List Char := ['['] ++ elements values ++ [']']

def member (key : String) (value : List Char) : List Char := quoted key ++ [':'] ++ value

def members : List (String × List Char) → List Char
  | [] => []
  | [(key, value)] => member key value
  | (key, value) :: rest => member key value ++ [','] ++ members rest

def object (fields : List (String × List Char)) : List Char := ['\x7b'] ++ members fields ++ ['\x7d']

theorem utf8Len_member (key : String) (value : List Char) :
    utf8Len (member key value) = utf8Len (quoted key) + 1 + utf8Len value := by
  have hcolon : utf8Len [':'] = 1 := rfl
  simp only [member, String.utf8Len_append, hcolon]

def frame : List String → Nat
  | [] => 2
  | [key] => utf8Len (quoted key) + 3
  | key :: rest => utf8Len (quoted key) + 2 + frame rest

theorem utf8Len_object (fields : List (String × List Char)) :
    utf8Len (object fields) =
      frame (fields.map Prod.fst) + (fields.map fun field => utf8Len field.2).sum := by
  have hmembers : utf8Len (members fields) + 2 =
      frame (fields.map Prod.fst) + (fields.map fun field => utf8Len field.2).sum := by
    induction fields with
    | nil => rfl
    | cons field rest ih =>
      cases rest with
      | nil => simp [members, utf8Len_member, frame]; omega
      | cons next rest =>
        have hkeys : frame ((field :: next :: rest).map Prod.fst) =
            utf8Len (quoted field.1) + 2 + frame ((next :: rest).map Prod.fst) := rfl
        have htext : utf8Len (members (field :: next :: rest)) =
            utf8Len (member field.1 field.2) + 1 + utf8Len (members (next :: rest)) := by
          have hcomma : utf8Len [','] = 1 := rfl
          simp only [members, String.utf8Len_append, hcomma]
        have hsum : ((field :: next :: rest).map fun field => utf8Len field.2).sum =
            utf8Len field.2 + ((next :: rest).map fun field => utf8Len field.2).sum := rfl
        rw [hkeys, htext, utf8Len_member, hsum]
        omega
  simp only [object, String.utf8Len_append]
  have hopen : utf8Len ['\x7b'] = 1 := rfl
  have hclose : utf8Len ['\x7d'] = 1 := rfl
  omega

theorem utf8Len_flatMap_replicate (n : Nat) (c : Char) :
    utf8Len ((List.replicate n c).flatMap escape) = n * utf8Len (escape c) := by
  induction n with
  | zero => simp
  | succ n ih =>
    rw [List.replicate_succ, List.flatMap_cons, String.utf8Len_append, ih, Nat.succ_mul]
    omega

theorem utf8Len_quoted_replicate (n : Nat) (c : Char) :
    utf8Len (quoted (String.ofList (List.replicate n c))) = n * utf8Len (escape c) + 2 := by
  have hquote : utf8Len ['"'] = 1 := rfl
  simp only [quoted, String.toList_ofList, String.utf8Len_append, utf8Len_flatMap_replicate, hquote]
  omega

theorem utf8Len_escape_le (c : Char) : utf8Len (escape c) ≤ 6 * c.utf8Size := by
  have hpos : 0 < c.utf8Size := c.utf8Size_pos
  have hdigit : ∀ n < 16, (Nat.digitChar n).utf8Size = 1 := by decide
  have hshort : ∀ a b : Char, a.utf8Size = 1 → b.utf8Size = 1 →
      utf8Len [a, b] ≤ 6 * c.utf8Size := by
    intro a b ha hb
    simp only [String.utf8Len_cons, String.utf8Len_nil, ha, hb]
    omega
  unfold escape
  by_cases hquote : c = '"'
  · rw [if_pos hquote]
    exact hshort _ _ rfl rfl
  rw [if_neg hquote]
  by_cases hbackslash : c = '\\'
  · rw [if_pos hbackslash]
    exact hshort _ _ rfl rfl
  rw [if_neg hbackslash]
  split_ifs with _ _ _ _ _ hcontrol
  all_goals first
    | exact hshort _ _ rfl rfl
    | skip
  · have hslash : utf8Len ['\\', 'u', '0', '0'] = 4 := rfl
    simp only [String.utf8Len_append, hslash, controlDigits, String.utf8Len_cons,
      String.utf8Len_nil, hdigit (c.toNat / 16) (by omega), hdigit (c.toNat % 16) (by omega)]
    omega
  · simp only [String.utf8Len_cons, String.utf8Len_nil]
    omega

theorem utf8Len_quoted_le (text : String) : utf8Len (quoted text) ≤ 6 * text.utf8ByteSize + 2 := by
  have hquote : utf8Len ['"'] = 1 := rfl
  have hchars : ∀ chars : List Char, utf8Len (chars.flatMap escape) ≤ 6 * utf8Len chars := by
    intro chars
    induction chars with
    | nil => simp
    | cons c chars ih =>
      rw [List.flatMap_cons, String.utf8Len_append, String.utf8Len_cons]
      have hc := utf8Len_escape_le c
      omega
  have htext := hchars text.toList
  have hsize : utf8Len text.toList = text.utf8ByteSize := by
    rw [← String.utf8ByteSize_ofList, String.ofList_toList]
  simp only [quoted, String.utf8Len_append, hquote]
  omega

theorem utf8Len_array (values : List (List Char)) :
    utf8Len (array values) = 2 + (values.map utf8Len).sum + (values.length - 1) := by
  have helements : utf8Len (elements values) = (values.map utf8Len).sum + (values.length - 1) := by
    induction values with
    | nil => rfl
    | cons value values ih =>
      cases values with
      | nil => simp [elements]
      | cons next rest =>
        have hcomma : utf8Len [','] = 1 := rfl
        have htext : utf8Len (elements (value :: next :: rest)) =
            utf8Len value + 1 + utf8Len (elements (next :: rest)) := by
          simp only [elements, String.utf8Len_append, hcomma]
        have hsum : ((value :: next :: rest).map utf8Len).sum =
            utf8Len value + ((next :: rest).map utf8Len).sum := rfl
        have hlength : (value :: next :: rest).length = rest.length + 2 := rfl
        have hnext : (next :: rest).length = rest.length + 1 := rfl
        omega
  have hopen : utf8Len ['['] = 1 := rfl
  have hclose : utf8Len [']'] = 1 := rfl
  simp only [array, String.utf8Len_append, hopen, hclose, helements]
  omega

end JsonText
end LocalDesk
