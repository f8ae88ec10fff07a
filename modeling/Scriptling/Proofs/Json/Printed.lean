import Scriptling.Json
import Scriptling.Proofs.Text.Numerals

/-!
# Printed values

The text of a value, written over several lines, says which value it is: different values have
different texts (`Json.pretty_injective`).

The texts are told apart from the front, where it has to be seen that a text ends before what is
written behind it does anything: a string ends at the first quote that is not escaped, lists and
objects at their brackets, and a number where the digits do (`NoDigit`).
-/

namespace Scriptling.Json

/-! ## Strings -/

/-- The control character of two hexadecimal digits. -/
def controlOf? (a b : Char) : Option Char :=
  ((List.range 0x20).find? fun n =>
    Nat.digitChar (n / 16) == a && Nat.digitChar (n % 16) == b).map Char.ofNat

/-- The first character of the inside of a string, and what is behind it. -/
def unescape? : List Char → Option (Char × List Char)
  | '\\' :: 'n' :: rest => some ('\n', rest)
  | '\\' :: 'r' :: rest => some ('\r', rest)
  | '\\' :: 't' :: rest => some ('\t', rest)
  | '\\' :: 'b' :: rest => some ('\x08', rest)
  | '\\' :: 'f' :: rest => some ('\x0c', rest)
  | '\\' :: 'u' :: '0' :: '0' :: a :: b :: rest => (controlOf? a b).map (·, rest)
  | '\\' :: c :: rest => some (c, rest)
  | '"' :: _ => none
  | c :: rest => some (c, rest)
  | [] => none

theorem controlOf?_digitChar :
    ∀ n < 0x20, controlOf? (Nat.digitChar (n / 16)) (Nat.digitChar (n % 16)) = some (.ofNat n) := by
  decide

theorem unescape?_escape (c : Char) (rest : List Char) :
    unescape? (escape c ++ rest) = some (c, rest) := by
  fun_cases escape c with
  | case1 | case2 | case3 | case4 | case5 | case6 | case7 =>
    subst c
    rfl
  | case8 _ _ _ _ _ _ _ hcontrol => simp [unescape?, controlOf?_digitChar _ hcontrol]
  | case9 hquote hbackslash => simp [unescape?, hbackslash]

theorem escape_cancel {c d : Char} {r s : List Char} (h : escape c ++ r = escape d ++ s) :
    c = d ∧ r = s := by
  have hread := congrArg unescape? h
  rw [unescape?_escape, unescape?_escape] at hread
  simpa using hread

/-- No quote is an escape of a character. -/
theorem escape_ne_quote (c : Char) (r s : List Char) : escape c ++ r ≠ '"' :: s := by
  intro h
  have hread := congrArg unescape? h
  rw [unescape?_escape] at hread
  cases hread

/-- The inside of a string ends at the quote. -/
theorem escapes_cancel {cs ds r s : List Char}
    (h : cs.flatMap escape ++ '"' :: r = ds.flatMap escape ++ '"' :: s) : cs = ds ∧ r = s := by
  induction cs generalizing ds with
  | nil =>
    cases ds with
    | nil => simpa using h
    | cons d ds =>
      rw [List.flatMap_cons, List.append_assoc] at h
      exact absurd h.symm (escape_ne_quote d _ _)
  | cons c cs ih =>
    cases ds with
    | nil =>
      rw [List.flatMap_cons, List.append_assoc] at h
      exact absurd h (escape_ne_quote c _ _)
    | cons d ds =>
      rw [List.flatMap_cons, List.append_assoc, List.flatMap_cons, List.append_assoc] at h
      obtain ⟨rfl, hbehind⟩ := escape_cancel h
      obtain ⟨rfl, hrest⟩ := ih hbehind
      exact ⟨rfl, hrest⟩

theorem toList_quote (s : String) :
    (quote s).toList = '"' :: (s.toList.flatMap escape ++ ['"']) := by
  simp [quote]

theorem quote_cancel {s t : String} {r r' : List Char}
    (h : (quote s).toList ++ r = (quote t).toList ++ r') : s = t ∧ r = r' := by
  simp only [toList_quote, List.cons_append, List.append_assoc, List.cons.injEq, true_and] at h
  obtain ⟨hst, h⟩ := escapes_cancel h
  exact ⟨String.toList_inj.mp hst, h⟩

/-! ## Numbers -/

/-- The text does not go on with a digit. -/
def NoDigit (rest : List Char) : Prop :=
  ∀ d ∈ rest.head?, d.isDigit = false

theorem noDigit_cons {c : Char} (h : c.isDigit = false) (rest : List Char) :
    NoDigit (c :: rest) := by
  simpa [NoDigit] using h

theorem repr_cancel {a b : Nat} {r s : List Char} (hr : NoDigit r) (hs : NoDigit s)
    (h : a.repr.toList ++ r = b.repr.toList ++ s) : a = b ∧ r = s := by
  have hdigits (n : Nat) := (Text.isDigits_iff.mp (Text.isDigits_repr n)).2
  have hrun := congrArg (List.takeWhile Char.isDigit) h
  have hrest := congrArg (List.dropWhile Char.isDigit) h
  rw [Text.takeWhile_append_of_run (hdigits a) hr, Text.takeWhile_append_of_run (hdigits b) hs]
    at hrun
  rw [Text.dropWhile_append_of_run (hdigits a) hr, Text.dropWhile_append_of_run (hdigits b) hs]
    at hrest
  have hvalue := congrArg Text.digitsValue hrun
  rw [Text.digitsValue_repr, Text.digitsValue_repr] at hvalue
  exact ⟨hvalue, hrest⟩

/-- A natural number begins with a digit. -/
theorem exists_repr_cons (n : Nat) : ∃ d ds, n.repr.toList = d :: ds ∧ d.isDigit = true := by
  obtain ⟨hne, hdigits⟩ := Text.isDigits_iff.mp (Text.isDigits_repr n)
  obtain ⟨d, ds, hcons⟩ := List.exists_cons_of_ne_nil hne
  exact ⟨d, ds, hcons, hdigits d (hcons ▸ List.mem_cons_self)⟩

theorem toList_number (n : Int) :
    (number n).toList = (if n < 0 then ['-'] else []) ++ n.natAbs.repr.toList := by
  rw [number]
  split_ifs <;> simp

theorem number_cancel {m n : Int} {r s : List Char} (hr : NoDigit r) (hs : NoDigit s)
    (h : (number m).toList ++ r = (number n).toList ++ s) : m = n ∧ r = s := by
  obtain ⟨d, ds, hd, hdigit⟩ := exists_repr_cons m.natAbs
  obtain ⟨e, es, he, hdigit'⟩ := exists_repr_cons n.natAbs
  have hminus : ('-').isDigit = false := rfl
  rw [toList_number, toList_number, List.append_assoc, List.append_assoc] at h
  split_ifs at h with hm hn hn
  · obtain ⟨habs, h⟩ := repr_cancel hr hs (List.append_cancel_left h)
    exact ⟨by omega, h⟩
  · -- a sign and a digit
    rw [he] at h
    obtain ⟨rfl, -⟩ := List.cons.inj h
    rw [hminus] at hdigit'
    cases hdigit'
  · rw [hd] at h
    obtain ⟨rfl, -⟩ := List.cons.inj h
    rw [hminus] at hdigit
    cases hdigit
  · obtain ⟨habs, h⟩ := repr_cancel hr hs (List.append_cancel_left h)
    exact ⟨by omega, h⟩

/-! ## Values -/

section

variable (margin : String)

@[simp] theorem pretty_null : null.pretty margin = "null" := rfl

@[simp] theorem pretty_false : (bool false).pretty margin = "false" := rfl

@[simp] theorem pretty_true : (bool true).pretty margin = "true" := rfl

@[simp] theorem pretty_int (n : Int) : (int n).pretty margin = number n := rfl

@[simp] theorem pretty_arr_nil : (arr []).pretty margin = "[]" := rfl

@[simp] theorem pretty_arr_cons (j : Json) (js : List Json) :
    (arr (j :: js)).pretty margin = "[\n" ++ margin ++ "  " ++ j.pretty (margin ++ "  ") ++
      prettyItems (margin ++ "  ") js ++ "\n" ++ margin ++ "]" := rfl

@[simp] theorem pretty_obj_nil : (obj []).pretty margin = "\x7b\x7d" := rfl

@[simp] theorem pretty_obj_cons (m : String × Json) (ms : List (String × Json)) :
    (obj (m :: ms)).pretty margin = "\x7b\n" ++ margin ++ "  " ++ quote m.1 ++ ": " ++
      m.2.pretty (margin ++ "  ") ++ prettyMembers (margin ++ "  ") ms ++ "\n" ++ margin ++
      "\x7d" := rfl

@[simp] theorem prettyItems_nil : prettyItems margin [] = "" := rfl

@[simp] theorem prettyItems_cons (j : Json) (js : List Json) :
    prettyItems margin (j :: js) =
      ",\n" ++ margin ++ j.pretty margin ++ prettyItems margin js := rfl

@[simp] theorem prettyMembers_nil : prettyMembers margin [] = "" := rfl

@[simp] theorem prettyMembers_cons (m : String × Json) (ms : List (String × Json)) :
    prettyMembers margin (m :: ms) =
      ",\n" ++ margin ++ quote m.1 ++ ": " ++ m.2.pretty margin ++ prettyMembers margin ms := rfl

end

/-- What the first character says about the form of a value. -/
inductive Form
  | null | bool | number | string | list | object
deriving DecidableEq

/-- The form of a value. -/
def form : Json → Form
  | null => .null
  | bool _ => .bool
  | int _ => .number
  | str _ => .string
  | arr _ => .list
  | obj _ => .object

/-- The form of the value of which a text begins with the character. -/
def Form.ofChar (c : Char) : Form :=
  if c = 'n' then .null
  else if c = 't' ∨ c = 'f' then .bool
  else if c = '"' then .string
  else if c = '[' then .list
  else if c = '\x7b' then .object
  else .number

theorem Form.ofChar_of_isDigit {c : Char} (h : c.isDigit = true) : Form.ofChar c = .number := by
  have hne (d : Char) (hd : d.isDigit = false) : c ≠ d := by
    rintro rfl
    rw [hd] at h
    cases h
  simp [Form.ofChar, hne]

/-- The first character tells the form. -/
theorem exists_pretty_cons (margin : String) (j : Json) :
    ∃ c cs, (j.pretty margin).toList = c :: cs ∧ Form.ofChar c = j.form := by
  cases j with
  | null => simp [Form.ofChar, form]
  | bool b => cases b <;> simp [Form.ofChar, form]
  | int n =>
    rw [pretty_int, toList_number]
    split_ifs
    · exact ⟨'-', _, rfl, rfl⟩
    · obtain ⟨d, ds, hd, hdigit⟩ := exists_repr_cons n.natAbs
      exact ⟨d, ds, hd, Form.ofChar_of_isDigit hdigit⟩
  | str s => exact ⟨'"', _, toList_quote s, rfl⟩
  | arr items => cases items <;> simp [Form.ofChar, form]
  | obj members => cases members <;> simp [Form.ofChar, form]

theorem form_eq_of_pretty {margin : String} {j k : Json} {r s : List Char}
    (h : (j.pretty margin).toList ++ r = (k.pretty margin).toList ++ s) : j.form = k.form := by
  obtain ⟨c, cs, hc, hj⟩ := exists_pretty_cons margin j
  obtain ⟨d, ds, hd, hk⟩ := exists_pretty_cons margin k
  rw [hc, hd] at h
  obtain ⟨rfl, -⟩ := List.cons.inj h
  exact hj.symm.trans hk

/-! ### Items and members -/

section

variable (margin : String) (rest : List Char)

theorem toList_prettyItems_cons (j : Json) (js : List Json) :
    (prettyItems margin (j :: js)).toList ++ rest = ',' :: '\n' :: (margin.toList ++
      ((j.pretty margin).toList ++ ((prettyItems margin js).toList ++ rest))) := by
  simp

theorem toList_prettyMembers_cons (key : String) (j : Json) (ms : List (String × Json)) :
    (prettyMembers margin ((key, j) :: ms)).toList ++ rest = ',' :: '\n' :: (margin.toList ++
      ((quote key).toList ++ (':' :: ' ' :: ((j.pretty margin).toList ++
        ((prettyMembers margin ms).toList ++ rest))))) := by
  simp

/-- A list opens where a comma is in front of further items. -/
theorem comma_cons_tail_pretty_arr (j : Json) (js : List Json) :
    ',' :: (((arr (j :: js)).pretty margin).toList ++ rest).tail =
      (prettyItems (margin ++ "  ") (j :: js)).toList ++
        '\n' :: (margin.toList ++ ']' :: rest) := by
  simp

/-- An object opens where a comma is in front of further members. -/
theorem comma_cons_tail_pretty_obj (m : String × Json) (ms : List (String × Json)) :
    ',' :: (((obj (m :: ms)).pretty margin).toList ++ rest).tail =
      (prettyMembers (margin ++ "  ") (m :: ms)).toList ++
        '\n' :: (margin.toList ++ '\x7d' :: rest) := by
  simp

theorem noDigit_items (js : List Json) :
    NoDigit ((prettyItems margin js).toList ++ '\n' :: rest) := by
  cases js with
  | nil => exact noDigit_cons rfl _
  | cons j js => simp [NoDigit]

theorem noDigit_members (ms : List (String × Json)) :
    NoDigit ((prettyMembers margin ms).toList ++ '\n' :: rest) := by
  cases ms with
  | nil => exact noDigit_cons rfl _
  | cons m ms => simp [NoDigit]

end

/-- A list ends at its bracket, if its items can be told apart. -/
theorem pretty_arr_cancel {js ks : List Json} {margin : String}
    (hitems : ∀ {r s : List Char}, (prettyItems (margin ++ "  ") js).toList ++ '\n' :: r =
      (prettyItems (margin ++ "  ") ks).toList ++ '\n' :: s → js = ks ∧ r = s)
    {r s : List Char}
    (h : ((arr js).pretty margin).toList ++ r = ((arr ks).pretty margin).toList ++ s) :
    arr js = arr ks ∧ r = s := by
  cases js <;> cases ks
  case nil.nil => exact ⟨rfl, List.append_cancel_left h⟩
  case nil.cons | cons.nil => simp at h
  case cons.cons j js k ks =>
    have hcomma := congrArg (fun cs => ',' :: cs.tail) h
    simp only [comma_cons_tail_pretty_arr] at hcomma
    obtain ⟨hjs, hend⟩ := hitems hcomma
    obtain ⟨-, hrest⟩ := List.cons.inj (List.append_cancel_left hend)
    exact ⟨congrArg arr hjs, hrest⟩

/-- An object ends at its brace, if its members can be told apart. -/
theorem pretty_obj_cancel {ms ns : List (String × Json)} {margin : String}
    (hmembers : ∀ {r s : List Char}, (prettyMembers (margin ++ "  ") ms).toList ++ '\n' :: r =
      (prettyMembers (margin ++ "  ") ns).toList ++ '\n' :: s → ms = ns ∧ r = s)
    {r s : List Char}
    (h : ((obj ms).pretty margin).toList ++ r = ((obj ns).pretty margin).toList ++ s) :
    obj ms = obj ns ∧ r = s := by
  cases ms <;> cases ns
  case nil.nil => exact ⟨rfl, List.append_cancel_left h⟩
  case nil.cons | cons.nil => simp at h
  case cons.cons m ms n ns =>
    have hcomma := congrArg (fun cs => ',' :: cs.tail) h
    simp only [comma_cons_tail_pretty_obj] at hcomma
    obtain ⟨hms, hend⟩ := hmembers hcomma
    obtain ⟨-, hrest⟩ := List.cons.inj (List.append_cancel_left hend)
    exact ⟨congrArg obj hms, hrest⟩

mutual

/-- **A value ends** before what is behind it, if that is no further digit. -/
theorem pretty_cancel (j k : Json) (margin : String) {r s : List Char} (hr : NoDigit r)
    (hs : NoDigit s) (h : (j.pretty margin).toList ++ r = (k.pretty margin).toList ++ s) :
    j = k ∧ r = s := by
  -- values of different forms differ in the first character
  have hform := form_eq_of_pretty h
  cases j <;> cases k
  case null.null => exact ⟨rfl, List.append_cancel_left h⟩
  case bool.bool b c => cases b <;> cases c <;> simp_all
  case int.int m n =>
    obtain ⟨rfl, hrest⟩ := number_cancel hr hs h
    exact ⟨rfl, hrest⟩
  case str.str t u =>
    obtain ⟨rfl, hrest⟩ := quote_cancel h
    exact ⟨rfl, hrest⟩
  case arr.arr js ks => exact pretty_arr_cancel (prettyItems_cancel js ks _) h
  case obj.obj ms ns => exact pretty_obj_cancel (prettyMembers_cancel ms ns _) h
  all_goals cases hform

/-- Items end before a line feed. -/
theorem prettyItems_cancel (js ks : List Json) (margin : String) {r s : List Char}
    (h : (prettyItems margin js).toList ++ '\n' :: r =
      (prettyItems margin ks).toList ++ '\n' :: s) : js = ks ∧ r = s := by
  cases js <;> cases ks
  case nil.nil => simpa using h
  case nil.cons | cons.nil => simp at h
  case cons.cons j js k ks =>
    simp only [toList_prettyItems_cons, List.cons.injEq, List.append_cancel_left_eq, true_and]
      at h
    obtain ⟨rfl, hjs⟩ := pretty_cancel j k margin (noDigit_items _ _ _) (noDigit_items _ _ _) h
    obtain ⟨rfl, hrest⟩ := prettyItems_cancel js ks margin hjs
    exact ⟨rfl, hrest⟩

/-- Members end before a line feed. -/
theorem prettyMembers_cancel (ms ns : List (String × Json)) (margin : String) {r s : List Char}
    (h : (prettyMembers margin ms).toList ++ '\n' :: r =
      (prettyMembers margin ns).toList ++ '\n' :: s) : ms = ns ∧ r = s := by
  cases ms <;> cases ns
  case nil.nil => simpa using h
  case nil.cons | cons.nil => simp at h
  case cons.cons m ms n ns =>
    obtain ⟨x, j⟩ := m
    obtain ⟨y, k⟩ := n
    simp only [toList_prettyMembers_cons, List.cons.injEq, List.append_cancel_left_eq, true_and]
      at h
    obtain ⟨rfl, hvalue⟩ := quote_cancel h
    simp only [List.cons.injEq, true_and] at hvalue
    obtain ⟨rfl, hms⟩ :=
      pretty_cancel j k margin (noDigit_members _ _ _) (noDigit_members _ _ _) hvalue
    obtain ⟨rfl, hrest⟩ := prettyMembers_cancel ms ns margin hms
    exact ⟨rfl, hrest⟩

end

/-- **The text says which value it is.** -/
theorem pretty_injective (margin : String) : Function.Injective (pretty margin) := by
  intro j k h
  have hnil : NoDigit [] := nofun
  have htext : (j.pretty margin).toList ++ [] = (k.pretty margin).toList ++ [] := by
    rw [h]
  exact (pretty_cancel j k margin hnil hnil htext).1

end Scriptling.Json
