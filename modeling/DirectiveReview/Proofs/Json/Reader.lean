/-
# Reading JSON

A reader of JSON values, by the grammar alone: blanks between the parts, fields in any
order, strings with escapes, numbers with a fraction and an exponent if wanted, and the
words for the numbers that have no decimal.  It knows nothing of the way in which values are
written here.

Its law is that a written value is read back, whatever follows it, unless a digit or a sign
follows a number and would be taken for a part of it.  The limit of the reader counts its
steps into and along arrays and objects.  Each of these steps passes at least one character,
so the length of the text is enough.
-/

import DirectiveReview.Proofs.Json.Strings
import DirectiveReview.Proofs.Text.Searches
import DirectiveReview.Proofs.Text.Words

namespace DirectiveReview.Json

open Text

/-! ## The reader -/

/-- A blank between the parts of a value. -/
def isBlank (c : Char) : Bool :=
  c == ' ' || c == '\t' || c == '\n' || c == '\r'

/-- A text without the blanks at its front. -/
def skipBlanks (text : Text) : Text :=
  text.dropWhile isBlank

/-- The words that stand for values. -/
def words : List (Text × Json) :=
  [("null".toList, .null), ("true".toList, .bool true), ("false".toList, .bool false),
    (specialNames.nan, .number .nan), (specialNames.infinity, .number (.infinite false)),
    ('-' :: specialNames.infinity, .number (.infinite true))]

/-- A word at the front of a text, with what follows. -/
def word? (text : Text) : Option (Json × Text) :=
  words.findSome? fun (word, json) => (behind? word text).map (json, ·)

/-- A character of a numeral. -/
def isNumeral (c : Char) : Bool :=
  c.isDigit || c == '+' || c == '-' || c == '.' || c == 'e' || c == 'E'

/-- The number that a numeral stands for.  Its whole part has no zeros in front, and a point
in it is followed by a digit. -/
def ofNumeral? (numeral : Text) : Option Json :=
  let size := if numeral.head? = some '-' then numeral.tail else numeral
  let whole := size.takeWhile Char.isDigit
  let behind := size.dropWhile Char.isDigit
  if whole = [] ∨ (whole.head? = some '0' ∧ whole.length ≠ 1) then none
  else if behind = [] then
    let value : Int := Decimal.digitsValue whole
    some (.integer (if numeral.head? = some '-' then -value else value))
  else if behind.head? = some '.' ∧ !behind.tail.head?.any Char.isDigit then none
  else (Decimal.read? numeral).map fun decimal => .number decimal.toBinary64

/-- A number at the front of a text, with what follows. -/
def number? (text : Text) : Option (Json × Text) :=
  (ofNumeral? (text.takeWhile isNumeral)).map (·, text.dropWhile isNumeral)

/-- A string in quotes at the front of a text, with what follows. -/
def quoted? (text : Text) : Option (Text × Text) :=
  (behind? ['"'] text).bind string?

/-- A value that has no parts, with what follows. -/
def scalar? (text : Text) : Option (Json × Text) :=
  (number? text).or <| (word? text).or <|
    (quoted? text).map fun (value, rest) => (.string value, rest)

/-- The name of a field with the colon behind it, and what follows. -/
def name? (text : Text) : Option (Text × Text) := do
  let (name, rest) ← quoted? text
  let rest ← behind? [':'] (skipBlanks rest)
  return (name, skipBlanks rest)

mutual

/-- A value at the front of a text, with what follows.  The limit bounds the steps into
arrays and objects and along them. -/
def value? : (limit : Nat) → Text → Option (Json × Text)
  | 0, _ => none
  | limit + 1, '[' :: rest =>
    match skipBlanks rest with
    | ']' :: rest => some (.array [], rest)
    | rest => (items? limit rest).map fun (items, rest) => (.array items, rest)
  | limit + 1, '\x7b' :: rest =>
    match skipBlanks rest with
    | '\x7d' :: rest => some (.object [], rest)
    | rest => (fields? limit rest).map fun (fields, rest) => (.object fields, rest)
  | _ + 1, text => scalar? text

/-- The items of an array that are left, at least one, with the closing bracket. -/
def items? : (limit : Nat) → Text → Option (List Json × Text)
  | 0, _ => none
  | limit + 1, text => do
    let (item, rest) ← value? limit text
    match skipBlanks rest with
    | ']' :: rest => return ([item], rest)
    | ',' :: rest => (items? limit (skipBlanks rest)).map fun (more, rest) => (item :: more, rest)
    | _ => none

/-- The fields of an object that are left, at least one, with the closing brace. -/
def fields? : (limit : Nat) → Text → Option (List (Text × Json) × Text)
  | 0, _ => none
  | limit + 1, text => do
    let (name, rest) ← name? text
    let (value, rest) ← value? limit rest
    match skipBlanks rest with
    | '\x7d' :: rest => return ([(name, value)], rest)
    | ',' :: rest =>
      (fields? limit (skipBlanks rest)).map fun (more, rest) => ((name, value) :: more, rest)
    | _ => none

end

/-- Read a text that holds one value and nothing else but blanks. -/
def read? (text : Text) : Option Json := do
  let (json, rest) ← value? text.length (skipBlanks text)
  if skipBlanks rest = [] then some json else none

/-! ## Numbers -/

/-- Nothing that could belong to a numeral is at the front of a text. -/
def EndsNumeral (rest : Text) : Prop :=
  ∀ c ∈ rest.head?, isNumeral c = false

theorem EndsNumeral.nil : EndsNumeral [] := nofun

theorem EndsNumeral.cons {c : Char} (other : isNumeral c = false) (rest : Text) :
    EndsNumeral (c :: rest) := by
  intro first same
  obtain rfl := Option.some.inj same
  exact other

theorem number?_append {numeral rest : Text} (all : ∀ c ∈ numeral, isNumeral c = true)
    (ends : EndsNumeral rest) :
    number? (numeral ++ rest) = (ofNumeral? numeral).map (·, rest) := by
  rw [number?, List.takeWhile_append_of_pos all, List.dropWhile_append_of_pos all,
    takeWhile_of_head? ends, dropWhile_of_head? ends, List.append_nil]

theorem isDigit_of_mem_natural {n : Nat} {c : Char} (inside : c ∈ natural n) : c.isDigit = true :=
  Nat.isDigit_of_mem_toDigits (by decide) (by decide) inside

theorem digitsValue_natural (n : Nat) : Decimal.digitsValue (natural n) = n :=
  Nat.ofDigitChars_toDigits (by decide) (by decide)

/-- A numeral begins with a zero only if it is that zero. -/
theorem natural_of_head {n : Nat} (zero : (natural n).head? = some '0') : natural n = ['0'] := by
  induction n using Nat.strongRecOn with
  | ind n ih =>
      have cut : natural n = if n < 10 then [n.digitChar]
          else natural (n / 10) ++ [(n % 10).digitChar] := Nat.toDigits_eq_if (by decide)
      rw [cut] at zero ⊢
      split at zero
      · next small =>
          rw [if_pos small, Option.some.inj zero]
      · next large =>
          have nonempty : natural (n / 10) ≠ [] := Nat.toDigits_ne_nil
          rw [List.head?_append_of_ne_nil _ nonempty] at zero
          have front := ih (n / 10) (Nat.div_lt_self (by omega) (by decide)) zero
          have value := congrArg Decimal.digitsValue front
          rw [digitsValue_natural] at value
          have none : n / 10 = 0 := value
          omega

/-- A numeral of digits alone is the whole number that it spells. -/
theorem ofNumeral?_natural (negative : Bool) (n : Nat) :
    ofNumeral? ((if negative then ['-'] else []) ++ natural n) =
      some (.integer (if negative then -n else n)) := by
  have digits : ∀ c ∈ natural n, c.isDigit = true := fun c => isDigit_of_mem_natural
  have whole : (natural n).takeWhile Char.isDigit = natural n :=
    List.takeWhile_eq_self_iff.mpr digits
  have behind : (natural n).dropWhile Char.isDigit = [] := List.dropWhile_eq_nil_iff.mpr digits
  have written : ¬ (natural n = [] ∨ ((natural n).head? = some '0' ∧ (natural n).length ≠ 1)) := by
    rintro (empty | ⟨zero, longer⟩)
    · exact Nat.toDigits_ne_nil empty
    · exact longer (by rw [natural_of_head zero]; rfl)
  have unsigned : (natural n).head? ≠ some '-' := by
    intro sign
    exact absurd (digits _ (List.mem_of_head? sign)) (by decide)
  cases negative with
  | true =>
      show ofNumeral? ('-' :: natural n) = some (.integer (-n))
      simp only [ofNumeral?, List.head?_cons, if_true, List.tail_cons, whole, behind, if_neg written,
        digitsValue_natural]
  | false =>
      show ofNumeral? (natural n) = some (.integer n)
      simp only [ofNumeral?, if_neg unsigned, whole, behind, if_neg written, if_true,
        digitsValue_natural]

theorem number?_integer (i : Int) {rest : Text} (ends : EndsNumeral rest) :
    number? (Text.integer i ++ rest) = some (.integer i, rest) := by
  have digit (n : Nat) : ∀ c ∈ natural n, isNumeral c = true := by
    intro c inside
    simp [isNumeral, isDigit_of_mem_natural inside]
  cases i with
  | ofNat n =>
      have read := ofNumeral?_natural false n
      rw [Text.integer, number?_append (digit n) ends]
      exact congrArg (Option.map (·, rest)) read
  | negSucc n =>
      have read := ofNumeral?_natural true (n + 1)
      rw [Text.integer, number?_append (List.forall_mem_cons.mpr ⟨rfl, digit (n + 1)⟩) ends]
      exact congrArg (Option.map (·, rest)) read

/-! ## Values without parts -/

/-- A text begins with a character of a kind. -/
def Begins (kind : Char → Prop) (text : Text) : Prop :=
  ∃ c rest, text = c :: rest ∧ kind c

/-- A character that is neither a blank nor a closing bracket or brace. -/
def OpensPart (c : Char) : Prop :=
  isBlank c = false ∧ c ≠ ']' ∧ c ≠ '\x7d'

instance (c : Char) : Decidable (OpensPart c) :=
  inferInstanceAs (Decidable (isBlank c = false ∧ c ≠ ']' ∧ c ≠ '\x7d'))

/-- A character that begins no array and no object either. -/
def OpensScalar (c : Char) : Prop :=
  OpensPart c ∧ c ≠ '[' ∧ c ≠ '\x7b'

instance (c : Char) : Decidable (OpensScalar c) :=
  inferInstanceAs (Decidable (OpensPart c ∧ c ≠ '[' ∧ c ≠ '\x7b'))

variable {limit : Nat} {text rest behind : Text}

theorem Begins.append {kind : Char → Prop} (begins : Begins kind text) (rest : Text) :
    Begins kind (text ++ rest) := by
  obtain ⟨c, more, rfl, here⟩ := begins
  exact ⟨c, more ++ rest, rfl, here⟩

theorem Begins.opensPart (begins : Begins OpensScalar text) : Begins OpensPart text := by
  obtain ⟨c, more, same, opens⟩ := begins
  exact ⟨c, more, same, opens.1⟩

/-- What is written for a number is read as this number. -/
structure ReadsBack (x : Binary64) : Prop where
  begins : Begins OpensScalar (x.text specialNames)
  read : ∀ rest, EndsNumeral rest →
    scalar? (x.text specialNames ++ rest) = some (.number x, rest)

theorem readsBack_nan : ReadsBack .nan :=
  ⟨⟨'N', "aN".toList, rfl, by decide⟩, fun _ _ => rfl⟩

theorem readsBack_infinite (negative : Bool) : ReadsBack (.infinite negative) := by
  cases negative with
  | false => exact ⟨⟨'I', "nfinity".toList, rfl, by decide⟩, fun _ _ => rfl⟩
  | true => exact ⟨⟨'-', "Infinity".toList, rfl, by decide⟩, fun _ _ => rfl⟩

theorem opensScalar_of_isDigit {c : Char} (digit : c.isDigit = true) : OpensScalar c := by
  have other {d : Char} (letter : d.isDigit = false) : c ≠ d := by
    rintro rfl
    cases digit.symm.trans letter
  have blank : isBlank c = false := by
    simp [isBlank, other (d := ' ') rfl, other (d := '\t') rfl, other (d := '\n') rfl,
      other (d := '\r') rfl]
  exact ⟨⟨blank, other rfl, other rfl⟩, other rfl, other rfl⟩

theorem begins_integer (i : Int) : Begins OpensScalar (Text.integer i) := by
  cases i with
  | negSucc n => exact ⟨'-', natural (n + 1), rfl, by decide⟩
  | ofNat n =>
      have nonempty : natural n ≠ [] := Nat.toDigits_ne_nil
      obtain ⟨c, rest, cut⟩ := List.exists_cons_of_ne_nil nonempty
      have inside : c ∈ natural n := cut ▸ List.mem_cons_self
      exact ⟨c, rest, cut, opensScalar_of_isDigit (isDigit_of_mem_natural inside)⟩

theorem scalar?_integer (i : Int) {rest : Text} (ends : EndsNumeral rest) :
    scalar? (Text.integer i ++ rest) = some (.integer i, rest) := by
  rw [scalar?, number?_integer i ends]
  rfl

theorem quoted?_stringText (value rest : Text) :
    quoted? (stringText value ++ rest) = some (value, rest) := by
  have cut : stringText value ++ rest = '"' :: (value.flatMap escapedChar ++ '"' :: rest) := by
    simp [stringText]
  rw [cut]
  exact string?_stringText value rest

theorem scalar?_stringText (value rest : Text) :
    scalar? (stringText value ++ rest) = some (.string value, rest) := by
  have read := congrArg (Option.map fun (value, rest) => (Json.string value, rest))
    (quoted?_stringText value rest)
  -- No number and no word begins with a quote.
  exact read

theorem value?_of_scalar {json : Json}
    (begins : Begins OpensScalar text) (enough : text.length ≤ limit)
    (read : scalar? (text ++ rest) = some (json, rest)) :
    value? limit (text ++ rest) = some (json, rest) := by
  obtain ⟨c, more, rfl, opens⟩ := begins
  cases limit with
  | zero => cases enough
  | succ limit =>
      rw [← read, List.cons_append]
      conv_lhs => unfold value?
      split
      · next same => cases same
      · next same => exact absurd (List.cons.inj same).1 opens.2.1
      · next same => exact absurd (List.cons.inj same).1 opens.2.2
      · rfl

/-! ## Arrays and objects -/

theorem skipBlanks_of_begins (begins : Begins OpensPart text) : skipBlanks text = text := by
  obtain ⟨c, more, rfl, opens⟩ := begins
  exact List.dropWhile_cons_of_neg (by simp [opens.1])

theorem value?_array (begins : Begins OpensPart text) :
    value? (limit + 1) ('[' :: text) =
      (items? limit text).map fun (items, rest) => (.array items, rest) := by
  have front := skipBlanks_of_begins begins
  obtain ⟨c, more, rfl, opens⟩ := begins
  rw [value?]
  split
  · next closed =>
      rw [front] at closed
      exact absurd (List.cons.inj closed).1 opens.2.1
  · rw [front]

theorem value?_object (begins : Begins OpensPart text) :
    value? (limit + 1) ('\x7b' :: text) =
      (fields? limit text).map fun (fields, rest) => (.object fields, rest) := by
  have front := skipBlanks_of_begins begins
  obtain ⟨c, more, rfl, opens⟩ := begins
  rw [value?]
  split
  · next closed =>
      rw [front] at closed
      exact absurd (List.cons.inj closed).1 opens.2.2
  · rw [front]

theorem items?_last {item : Json} (read : value? limit text = some (item, ']' :: rest)) :
    items? (limit + 1) text = some ([item], rest) := by
  rw [items?, read]
  rfl

theorem items?_next {item : Json} (begins : Begins OpensPart behind)
    (read : value? limit text = some (item, ',' :: ' ' :: behind)) :
    items? (limit + 1) text =
      (items? limit behind).map fun (more, rest) => (item :: more, rest) := by
  have front : skipBlanks (' ' :: behind) = behind := skipBlanks_of_begins begins
  rw [items?, read]
  show (items? limit (skipBlanks (' ' :: behind))).map _ = _
  rw [front]

theorem name?_stringText (begins : Begins OpensPart text) (name : Text) :
    name? (stringText name ++ (": ".toList ++ text)) = some (name, text) := by
  have front : skipBlanks (' ' :: text) = text := skipBlanks_of_begins begins
  rw [name?, quoted?_stringText]
  show some (name, skipBlanks (' ' :: text)) = _
  rw [front]

theorem fields?_last {name : Text} {value : Json} (named : name? text = some (name, behind))
    (read : value? limit behind = some (value, '\x7d' :: rest)) :
    fields? (limit + 1) text = some ([(name, value)], rest) := by
  rw [fields?, named]
  show (value? limit behind).bind _ = _
  rw [read]
  rfl

theorem fields?_next {name others : Text} {value : Json} (begins : Begins OpensPart others)
    (named : name? text = some (name, behind))
    (read : value? limit behind = some (value, ',' :: ' ' :: others)) :
    fields? (limit + 1) text =
      (fields? limit others).map fun (more, rest) => ((name, value) :: more, rest) := by
  have front : skipBlanks (' ' :: others) = others := skipBlanks_of_begins begins
  rw [fields?, named]
  show (value? limit behind).bind _ = _
  rw [read]
  show (fields? limit (skipBlanks (' ' :: others))).map _ = _
  rw [front]

/-! ## Written values are read back -/

mutual

/-- The binary64 numbers in a value. -/
def numbers : Json → List Binary64
  | .number x => [x]
  | .array items => itemNumbers items
  | .object fields => fieldNumbers fields
  | _ => []

/-- The binary64 numbers in a row of values. -/
def itemNumbers : List Json → List Binary64
  | [] => []
  | item :: rest => numbers item ++ itemNumbers rest

/-- The binary64 numbers in a row of fields. -/
def fieldNumbers : List (Text × Json) → List Binary64
  | [] => []
  | (_, value) :: rest => numbers value ++ fieldNumbers rest

end

theorem numbers_orNull {α : Type} {encode : α → Json} (none : ∀ value, (encode value).numbers = [])
    (value : Option α) : (orNull encode value).numbers = [] := by
  cases value with
  | none => rfl
  | some given => exact none given

theorem itemNumbers_map {α : Type} {encode : α → Json} (none : ∀ value, (encode value).numbers = [])
    (values : List α) : itemNumbers (values.map encode) = [] := by
  induction values with
  | nil => rfl
  | cons value rest ih => simp [itemNumbers, none, ih]

theorem begins_text {json : Json} (back : ∀ x ∈ json.numbers, ReadsBack x) :
    Begins OpensPart json.text := by
  match json with
  | .null => exact ⟨'n', "ull".toList, by rw [text]; rfl, by decide⟩
  | .bool true => exact ⟨'t', "rue".toList, by rw [text]; rfl, by decide⟩
  | .bool false => exact ⟨'f', "alse".toList, by rw [text]; rfl, by decide⟩
  | .integer value => rw [text]; exact (begins_integer value).opensPart
  | .number x => rw [text]; exact (back x (by simp [numbers])).begins.opensPart
  | .string value => exact ⟨'"', _, by rw [text]; rfl, by decide⟩
  | .array items => exact ⟨'[', _, by rw [text]; rfl, by decide⟩
  | .object fields => exact ⟨'\x7b', _, by rw [text]; rfl, by decide⟩

theorem begins_join {part : Text} (begins : Begins OpensPart part) (parts : List Text) :
    Begins OpensPart (join ", ".toList (part :: parts)) := by
  cases parts with
  | nil => rwa [join_singleton]
  | cons next more =>
      rw [join_cons_cons]
      exact begins.append _

theorem begins_stringText (value : Text) : Begins OpensPart (stringText value) :=
  ⟨'"', _, rfl, by decide⟩

mutual

theorem value?_text : (json : Json) → (∀ x ∈ json.numbers, ReadsBack x) →
    ∀ {limit : Nat} {rest : Text}, json.text.length ≤ limit → EndsNumeral rest →
      value? limit (json.text ++ rest) = some (json, rest)
  | .null, back, limit, rest, enough, ends => by
      rw [text] at enough ⊢
      exact value?_of_scalar ⟨'n', "ull".toList, rfl, by decide⟩ enough rfl
  | .bool true, back, limit, rest, enough, ends => by
      rw [text] at enough ⊢
      exact value?_of_scalar ⟨'t', "rue".toList, rfl, by decide⟩ enough rfl
  | .bool false, back, limit, rest, enough, ends => by
      rw [text] at enough ⊢
      exact value?_of_scalar ⟨'f', "alse".toList, rfl, by decide⟩ enough rfl
  | .integer value, back, limit, rest, enough, ends => by
      rw [text] at enough ⊢
      exact value?_of_scalar (begins_integer value) enough (scalar?_integer value ends)
  | .number x, back, limit, rest, enough, ends => by
      have here := back x (by simp [numbers])
      rw [text] at enough ⊢
      exact value?_of_scalar here.begins enough (here.read rest ends)
  | .string value, back, limit, rest, enough, ends => by
      rw [text] at enough ⊢
      exact value?_of_scalar ⟨'"', _, rfl, by decide⟩ enough (scalar?_stringText value rest)
  | .array [], back, limit + 1, rest, enough, ends => by
      rw [text]
      rfl
  | .array (item :: items), back, limit + 1, rest, enough, ends => by
      rw [numbers] at back
      rw [text] at enough ⊢
      have begins : Begins OpensPart (join ", ".toList (itemTexts (item :: items))) := by
        rw [itemTexts]
        exact begins_join (begins_text fun x inside => back x (by simp [itemNumbers, inside])) _
      have cut (inner : Text) : '[' :: inner ++ [']'] ++ rest = '[' :: (inner ++ ']' :: rest) := by
        simp
      have short : (join ", ".toList (itemTexts (item :: items))).length + 1 ≤ limit := by
        simpa using enough
      rw [cut, value?_array (begins.append _),
        items?_text (item :: items) (List.cons_ne_nil _ _) back short]
      rfl
  | .object [], back, limit + 1, rest, enough, ends => by
      rw [text]
      rfl
  | .object ((name, value) :: fields), back, limit + 1, rest, enough, ends => by
      rw [numbers] at back
      rw [text] at enough ⊢
      have begins : Begins OpensPart (join ", ".toList (fieldTexts ((name, value) :: fields))) := by
        rw [fieldTexts]
        exact begins_join (((begins_stringText name).append _).append _) _
      have cut (inner : Text) :
          '\x7b' :: inner ++ ['\x7d'] ++ rest = '\x7b' :: (inner ++ '\x7d' :: rest) := by
        simp
      have short : (join ", ".toList (fieldTexts ((name, value) :: fields))).length + 1 ≤ limit := by
        simpa using enough
      rw [cut, value?_object (begins.append _),
        fields?_text ((name, value) :: fields) (List.cons_ne_nil _ _) back short]
      rfl
  | .array items, back, 0, rest, enough, ends => by
      rw [text] at enough
      cases enough
  | .object fields, back, 0, rest, enough, ends => by
      rw [text] at enough
      cases enough

theorem items?_text : (items : List Json) → items ≠ [] → (∀ x ∈ itemNumbers items, ReadsBack x) →
    ∀ {limit : Nat} {rest : Text}, (join ", ".toList (itemTexts items)).length + 1 ≤ limit →
      items? limit (join ", ".toList (itemTexts items) ++ ']' :: rest) = some (items, rest)
  | [], nonempty, back, limit, rest, enough => absurd rfl nonempty
  | items, nonempty, back, 0, rest, enough => by cases enough
  | [item], nonempty, back, limit + 1, rest, enough => by
      rw [itemTexts, itemTexts, join_singleton] at enough ⊢
      exact items?_last (value?_text item (fun x inside => back x (by simp [itemNumbers, inside]))
        (by omega) (.cons rfl rest))
  | item :: next :: more, nonempty, back, limit + 1, rest, enough => by
      have backHere : ∀ x ∈ item.numbers, ReadsBack x :=
        fun x inside => back x (by simp [itemNumbers, inside])
      have backLater : ∀ x ∈ itemNumbers (next :: more), ReadsBack x :=
        fun x inside => back x (by rw [itemNumbers]; exact List.mem_append_right _ inside)
      have begins : Begins OpensPart (join ", ".toList (itemTexts (next :: more))) := by
        rw [itemTexts]
        exact begins_join (begins_text fun x inside => backLater x (by simp [itemNumbers, inside])) _
      have cut : join ", ".toList (itemTexts (item :: next :: more)) ++ ']' :: rest =
          item.text ++ (',' :: ' ' ::
            (join ", ".toList (itemTexts (next :: more)) ++ ']' :: rest)) := by
        rw [itemTexts, itemTexts, join_cons_cons, List.append_assoc, List.append_assoc]
        rfl
      have length : (join ", ".toList (itemTexts (item :: next :: more))).length =
          item.text.length + (2 + (join ", ".toList (itemTexts (next :: more))).length) := by
        rw [itemTexts, itemTexts, join_cons_cons, List.length_append, List.length_append]
        rfl
      rw [cut, items?_next (begins.append _)
          (value?_text item backHere (by omega) (.cons rfl _)),
        items?_text (next :: more) (List.cons_ne_nil _ _) backLater (by omega)]
      rfl

theorem fields?_text : (fields : List (Text × Json)) → fields ≠ [] →
    (∀ x ∈ fieldNumbers fields, ReadsBack x) → ∀ {limit : Nat} {rest : Text},
      (join ", ".toList (fieldTexts fields)).length + 1 ≤ limit →
      fields? limit (join ", ".toList (fieldTexts fields) ++ '\x7d' :: rest) = some (fields, rest)
  | [], nonempty, back, limit, rest, enough => absurd rfl nonempty
  | fields, nonempty, back, 0, rest, enough => by cases enough
  | [(name, value)], nonempty, back, limit + 1, rest, enough => by
      have backHere : ∀ x ∈ value.numbers, ReadsBack x :=
        fun x inside => back x (by simp [fieldNumbers, inside])
      have cut : join ", ".toList (fieldTexts [(name, value)]) ++ '\x7d' :: rest =
          stringText name ++ (": ".toList ++ (value.text ++ '\x7d' :: rest)) := by
        rw [fieldTexts, fieldTexts, join_singleton, List.append_assoc, List.append_assoc]
      have length : (join ", ".toList (fieldTexts [(name, value)])).length =
          (stringText name).length + 2 + value.text.length := by
        rw [fieldTexts, fieldTexts, join_singleton, List.length_append, List.length_append]
        rfl
      rw [cut]
      exact fields?_last (name?_stringText ((begins_text backHere).append _) name)
        (value?_text value backHere (by omega) (.cons rfl rest))
  | (name, value) :: next :: more, nonempty, back, limit + 1, rest, enough => by
      have backHere : ∀ x ∈ value.numbers, ReadsBack x :=
        fun x inside => back x (by simp [fieldNumbers, inside])
      have backLater : ∀ x ∈ fieldNumbers (next :: more), ReadsBack x :=
        fun x inside => back x (by rw [fieldNumbers]; exact List.mem_append_right _ inside)
      have begins : Begins OpensPart (join ", ".toList (fieldTexts (next :: more))) := by
        rw [fieldTexts]
        exact begins_join (((begins_stringText next.1).append _).append _) _
      have cut : join ", ".toList (fieldTexts ((name, value) :: next :: more)) ++ '\x7d' :: rest =
          stringText name ++ (": ".toList ++ (value.text ++ (',' :: ' ' ::
            (join ", ".toList (fieldTexts (next :: more)) ++ '\x7d' :: rest)))) := by
        rw [fieldTexts, fieldTexts, join_cons_cons, List.append_assoc, List.append_assoc,
          List.append_assoc, List.append_assoc]
        rfl
      have length : (join ", ".toList (fieldTexts ((name, value) :: next :: more))).length =
          (stringText name).length + 2 + value.text.length +
            (2 + (join ", ".toList (fieldTexts (next :: more))).length) := by
        rw [fieldTexts, fieldTexts, join_cons_cons, List.length_append, List.length_append,
          List.length_append, List.length_append]
        rfl
      rw [cut, fields?_next (begins.append _)
          (name?_stringText ((begins_text backHere).append _) name)
          (value?_text value backHere (by omega) (.cons rfl _)),
        fields?_text (next :: more) (List.cons_ne_nil _ _) backLater (by omega)]
      rfl

end

/-- **A written value is read back.** -/
theorem read?_text {json : Json} (back : ∀ x ∈ json.numbers, ReadsBack x) :
    read? json.text = some json := by
  have front : skipBlanks json.text = json.text := skipBlanks_of_begins (begins_text back)
  have read := value?_text json back (Nat.le_refl _) .nil
  rw [List.append_nil] at read
  rw [read?, front, read]
  rfl

end DirectiveReview.Json
