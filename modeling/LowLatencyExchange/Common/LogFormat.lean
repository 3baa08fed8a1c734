import LowLatencyExchange.Common.Logger

/-!
# The two overloads of `log`

`log(s, value, args...)` walks its format up to the first placeholder and hands the rest on with the
arguments left, `log(s)` walks the format once they are used up. Both look one character ahead for `%%`.
Here they are modelled one by one, with everything they push, and compared with the left-to-right reading
of a format. A C string is the list of its characters in front of the terminator.
-/

namespace LowLatencyExchange
namespace LogFormat

/-- `LogElement`: the type and the member of the union that is set. -/
inductive LogElement
  | char (c : Char)
  | integer (i : Int)
  | longInteger (l : Int)
  | longLongInteger (ll : Int)
  | unsignedInteger (u : Nat)
  | unsignedLongInteger (ul : Nat)
  | unsignedLongLongInteger (ull : Nat)
  | float (f : Float32)
  | double (d : Float)

/-- An argument of `log`, by the overload of `pushValue` that takes it. -/
inductive LogArg
  | element (e : LogElement)
  | cString (value : List Char)
  | string (value : List Char)

/-- `pushValue(const char*)` stops at the terminator. -/
def pushChars (value : List Char) : List LogElement :=
  (value.takeWhile fun c => c ≠ '\x00').map .char

def pushValue : LogArg → List LogElement
  | .element e => [e]
  | .cString value => pushChars value
  | .string value => pushChars value

/-- `log(const char* s)`. -/
def logRest : List Char → Except Fault (List LogElement)
  | [] => .ok []
  | '%' :: '%' :: s => do
    let pushed ← logRest s
    pure (.char '%' :: pushed)
  | '%' :: _ => .error (.fatal "missing args to log()")
  | c :: s => do
    let pushed ← logRest s
    pure (.char c :: pushed)

/-- `log(const char* s, const T& value, A... args)`. -/
def logValue : List Char → LogArg → List LogArg → Except Fault (List LogElement)
  | [], _, _ => .error (.fatal "Extra args provided to log()")
  | '%' :: '%' :: s, value, args => do
    let pushed ← logValue s value args
    pure (.char '%' :: pushed)
  | '%' :: s, value, [] => do
    let pushed ← logRest s
    pure (pushValue value ++ pushed)
  | '%' :: s, value, next :: args => do
    let pushed ← logValue s next args
    pure (pushValue value ++ pushed)
  | c :: s, value, args => do
    let pushed ← logValue s value args
    pure (.char c :: pushed)

/-- The overload that the number of arguments selects. -/
def log (s : List Char) : List LogArg → Except Fault (List LogElement)
  | [] => logRest s
  | value :: args => logValue s value args

/-- A format read from left to right: characters to push, and placeholders. -/
inductive Piece
  | char (c : Char)
  | placeholder
  deriving DecidableEq

def pieces : List Char → List Piece
  | [] => []
  | '%' :: '%' :: s => .char '%' :: pieces s
  | '%' :: s => .placeholder :: pieces s
  | c :: s => .char c :: pieces s

/-- The pieces with the arguments in the place of the placeholders, in order. -/
def render : List Piece → List LogArg → List LogElement
  | [], _ => []
  | .char c :: ps, args => .char c :: render ps args
  | .placeholder :: ps, [] => render ps []
  | .placeholder :: ps, value :: args => pushValue value ++ render ps args

/-- How many `%` of a format are not escaped. -/
def unescaped (s : List Char) : Nat := (pieces s).count .placeholder

/-- What a format does with these arguments. -/
def outcome (ps : List Piece) (args : List LogArg) : Except Fault (List LogElement) :=
  if ps.count .placeholder < args.length then .error (.fatal "Extra args provided to log()")
  else if args.length < ps.count .placeholder then .error (.fatal "missing args to log()")
  else .ok (render ps args)

lemma outcome_char (c : Char) (ps : List Piece) (args : List LogArg) :
    outcome (.char c :: ps) args = outcome ps args >>= fun pushed => pure (.char c :: pushed) := by
  have hcount : (Piece.char c :: ps).count .placeholder = ps.count .placeholder := List.count_cons_of_ne (by simp)
  unfold outcome
  rw [hcount]
  split
  · rfl
  · split
    · rfl
    · rfl

lemma outcome_placeholder (ps : List Piece) (value : LogArg) (args : List LogArg) :
    outcome (.placeholder :: ps) (value :: args) =
      outcome ps args >>= fun pushed => pure (pushValue value ++ pushed) := by
  have hcount : (Piece.placeholder :: ps).count .placeholder = ps.count .placeholder + 1 := List.count_cons_self
  unfold outcome
  rw [hcount, List.length_cons]
  simp only [Nat.add_lt_add_iff_right]
  split
  · rfl
  · split
    · rfl
    · rfl

lemma outcome_missing (ps : List Piece) :
    outcome (.placeholder :: ps) [] = .error (.fatal "missing args to log()") := by
  have hcount : (Piece.placeholder :: ps).count .placeholder = ps.count .placeholder + 1 := List.count_cons_self
  unfold outcome
  rw [hcount, List.length_nil, if_neg (Nat.not_lt_zero _), if_pos (Nat.succ_pos _)]

lemma logRest_eq (s : List Char) : logRest s = outcome (pieces s) [] := by
  fun_induction logRest s with
  | case1 => rfl
  | case2 s ih => rw [pieces, outcome_char, ih]
  | case3 s hne =>
    rw [pieces]
    · exact (outcome_missing _).symm
    · exact hne
  | case4 c s hpair hsingle ih =>
    rw [pieces, outcome_char, ih]
    · exact hpair
    · exact hsingle

lemma logValue_eq (s : List Char) (value : LogArg) (args : List LogArg) :
    logValue s value args = outcome (pieces s) (value :: args) := by
  fun_induction logValue s value args with
  | case1 value args => rfl
  | case2 value args s ih => rw [pieces, outcome_char, ih]
  | case3 s value hne =>
    rw [pieces, outcome_placeholder, logRest_eq]
    exact hne
  | case4 s value next args hne ih =>
    rw [pieces, outcome_placeholder, ih]
    exact hne
  | case5 c s value args hpair hnil hcons ih =>
    rw [pieces, outcome_char, ih]
    · exact hpair
    · cases args with
      | nil => exact hnil rfl
      | cons next args => exact hcons next args rfl

lemma log_eq_outcome (s : List Char) (args : List LogArg) : log s args = outcome (pieces s) args := by
  cases args with
  | nil => exact logRest_eq s
  | cons value args => exact logValue_eq s value args

/-- Runs of `%`, an escape next to a placeholder, a `%` in an argument, and one at the end. -/
example : log "%%% %%%".toList [.cString "a%".toList, .element (.integer 7)] =
    .ok [.char '%', .char 'a', .char '%', .char ' ', .char '%', .integer 7] := rfl

/-- The arguments that the callers pass. -/
def LogArg.ofValue : LogValue → LogArg
  | .text s => .string s.toList
  | .number n => .element (.unsignedLongLongInteger n)

lemma unescaped_eq (s : List Char) : unescaped s = Logger.placeholders s := by
  unfold unescaped
  fun_induction pieces s with
  | case1 => rfl
  | case2 s ih => rw [List.count_cons_of_ne (by simp), ih, Logger.placeholders]
  | case3 s hne ih =>
    rw [List.count_cons_self, ih, Logger.placeholders]
    exact hne
  | case4 c s hpair hsingle ih =>
    rw [List.count_cons_of_ne (by simp), ih, Logger.placeholders_cons_of_ne hsingle]

/-- The callers see of a call what `Logger.log` says. -/
theorem log_returns (format : String) (args : List LogValue) :
    Logger.log format args = (log format.toList (args.map LogArg.ofValue)).map fun _ => () := by
  rw [log_eq_outcome]
  unfold outcome
  have hcount : (pieces format.toList).count .placeholder = Logger.placeholders format.toList := unescaped_eq _
  rw [hcount, List.length_map]
  rcases Nat.lt_trichotomy (Logger.placeholders format.toList) args.length with hextra | hequal | hmissing
  · rw [if_pos hextra, Logger.log_extra hextra]
    rfl
  · rw [if_neg (Nat.not_lt.mpr (Nat.le_of_eq hequal.symm)), if_neg (Nat.not_lt.mpr (Nat.le_of_eq hequal)),
      Logger.log_eq_ok hequal]
    rfl
  · rw [if_neg (Nat.not_lt.mpr (Nat.le_of_lt hmissing)), if_pos hmissing, Logger.log_missing hmissing]
    rfl

end LogFormat
end LowLatencyExchange
