/-!
# Blank characters

White space as Unicode's property `White_Space` has it. The module trims text at either end,
splits it into words and collapses its blank runs. The operations work on lists of characters;
those on strings go through the list of their characters.
-/

namespace SqlTemplate.Text

/-- The characters with Unicode's property `White_Space`. -/
def isBlank (c : Char) : Bool :=
  let n := c.toNat
  (9 ≤ n && n ≤ 13) || n == 0x20 || n == 0x85 || n == 0xA0 || n == 0x1680 ||
    (0x2000 ≤ n && n ≤ 0x200A) || n == 0x2028 || n == 0x2029 || n == 0x202F || n == 0x205F ||
    n == 0x3000

/-- The text without its leading blanks. -/
def trimStart (s : List Char) : List Char :=
  s.dropWhile isBlank

/-- The text without its trailing blanks. -/
def trimEnd (s : List Char) : List Char :=
  (s.reverse.dropWhile isBlank).reverse

/-- The text without blanks at either end. -/
def trim (s : List Char) : List Char :=
  trimEnd (trimStart s)

/-- Whether a text begins with a blank. -/
def startsBlank : List Char → Bool
  | [] => false
  | c :: _ => isBlank c

/-- Whether a text begins with a character that is not blank. -/
def startsWord : List Char → Bool
  | [] => false
  | c :: _ => !isBlank c

/-- The maximal runs of characters that are not blank, in order. -/
def words : List Char → List (List Char)
  | [] => []
  | c :: rest =>
    if isBlank c then words rest
    else if startsWord rest then
      match words rest with
      | [] => [[c]]
      | w :: ws => (c :: w) :: ws
    else [c] :: words rest

/-- Every blank run written as one space, and none left at the ends. -/
def collapse (s : List Char) : List Char :=
  [' '].intercalate (words s)

/-- A string worked on as the list of its characters. -/
def mapChars (f : List Char → List Char) (s : String) : String :=
  .ofList (f s.toList)

@[simp] theorem toList_mapChars (f : List Char → List Char) (s : String) :
    (mapChars f s).toList = f s.toList := by
  simp [mapChars]

/-- A string without blanks at either end. -/
def trimmed (s : String) : String :=
  mapChars trim s

end SqlTemplate.Text
