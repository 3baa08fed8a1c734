import LowLatencyExchange.Common.Types

/-!
# The logger's format strings

`Common::Logger::log` walks its format string and pushes characters and arguments onto the
logger's queue. Too many or too few arguments end the process.
-/

namespace LowLatencyExchange

/-- The arguments that the code passes, a string or an unsigned integer. -/
inductive LogValue
  | text (s : String)
  | number (n : Nat)
  deriving DecidableEq, Repr

inductive LogElement
  | char (c : Char)
  | number (n : Nat)
  deriving DecidableEq, Repr

namespace Logger

/-- `pushValue`. A string is pushed character by character. -/
def pushValue : LogValue → List LogElement
  | .text s => s.toList.map .char
  | .number n => [.number n]

/-- `log(s, args...)`, both overloads, from the current position of the format. -/
def logChars : List Char → List LogValue → Except Fault (List LogElement)
  | [], [] => .ok []
  | [], _ :: _ => .error (.fatal "Extra args provided to log()")
  | '%' :: '%' :: s, args => do
    let pushed ← logChars s args
    pure (.char '%' :: pushed)
  | '%' :: _, [] => .error (.fatal "missing args to log()")
  | '%' :: s, value :: args => do
    let pushed ← logChars s args
    pure (pushValue value ++ pushed)
  | c :: s, args => do
    let pushed ← logChars s args
    pure (.char c :: pushed)

/-- How many arguments a format takes. -/
def placeholders : List Char → Nat
  | [] => 0
  | '%' :: '%' :: s => placeholders s
  | '%' :: s => placeholders s + 1
  | _ :: s => placeholders s

lemma placeholders_cons_of_ne {c : Char} (hc : c ≠ '%') (s : List Char) :
    placeholders (c :: s) = placeholders s := by
  simp [placeholders, hc]

/-- A call returns when it passes one argument for each placeholder. -/
lemma logChars_returns (s : List Char) (args : List LogValue) (h : placeholders s = args.length) :
    ∃ pushed, logChars s args = .ok pushed := by
  fun_induction logChars s args with
  | case1 => exact ⟨_, rfl⟩
  | case2 => simp [placeholders] at h
  | case3 args s ih =>
    obtain ⟨pushed, hpushed⟩ := ih (by simpa [placeholders] using h)
    exact ⟨_, by rw [hpushed, ok_bind, pure_eq_ok]⟩
  | case4 s hne => simp [placeholders] at h
  | case5 s value args hne ih =>
    obtain ⟨pushed, hpushed⟩ := ih (by simpa [placeholders] using h)
    exact ⟨_, by rw [hpushed, ok_bind, pure_eq_ok]⟩
  | case6 c s args _ hnone hsome ih =>
    have hc : c ≠ '%' := by cases args <;> simp_all
    obtain ⟨pushed, hpushed⟩ := ih (by rwa [placeholders_cons_of_ne hc] at h)
    exact ⟨_, by rw [hpushed, ok_bind, pure_eq_ok]⟩

/-- A call with more arguments than placeholders ends the process. -/
lemma logChars_extra (s : List Char) (args : List LogValue) (h : placeholders s < args.length) :
    logChars s args = .error (.fatal "Extra args provided to log()") := by
  fun_induction logChars s args with
  | case1 => simp at h
  | case2 => rfl
  | case3 args s ih => rw [ih (by simpa [placeholders] using h), error_bind]
  | case4 s hne => simp at h
  | case5 s value args hne ih => rw [ih (by simpa [placeholders] using h), error_bind]
  | case6 c s args _ hnone hsome ih =>
    have hc : c ≠ '%' := by cases args <;> simp_all
    rw [ih (by rwa [placeholders_cons_of_ne hc] at h), error_bind]

/-- A call with fewer arguments than placeholders ends the process. -/
lemma logChars_missing (s : List Char) (args : List LogValue) (h : args.length < placeholders s) :
    logChars s args = .error (.fatal "missing args to log()") := by
  fun_induction logChars s args with
  | case1 => simp [placeholders] at h
  | case2 => simp [placeholders] at h
  | case3 args s ih => rw [ih (by simpa [placeholders] using h), error_bind]
  | case4 s hne => rfl
  | case5 s value args hne ih => rw [ih (by simpa [placeholders] using h), error_bind]
  | case6 c s args _ hnone hsome ih =>
    have hc : c ≠ '%' := by cases args <;> simp_all
    rw [ih (by rwa [placeholders_cons_of_ne hc] at h), error_bind]

/-- What the callers see of a call: whether it returns. -/
def log (format : String) (args : List LogValue) : Except Fault Unit := do
  let _ ← logChars format.toList args
  pure ()

/-- Logging without effect. -/
def silent (_ : String) (_ : List LogValue) : Except Fault Unit := .ok ()

@[simp] lemma silent_eq_ok (format : String) (args : List LogValue) : silent format args = .ok () := rfl

lemma log_eq_ok {format : String} {args : List LogValue}
    (h : placeholders format.toList = args.length) : log format args = .ok () := by
  obtain ⟨pushed, hpushed⟩ := logChars_returns _ _ h
  simp [log, hpushed]

lemma log_extra {format : String} {args : List LogValue}
    (h : placeholders format.toList < args.length) :
    log format args = .error (.fatal "Extra args provided to log()") := by
  rw [log, logChars_extra _ _ h, error_bind]

lemma log_missing {format : String} {args : List LogValue}
    (h : args.length < placeholders format.toList) :
    log format args = .error (.fatal "missing args to log()") := by
  rw [log, logChars_missing _ _ h, error_bind]

end Logger

/-- The logging of a component: `Logger.log`, or `Logger.silent` where it is taken to have no
effect. -/
abbrev Log := String → List LogValue → Except Fault Unit

/-- The logging lets every call with matching arguments return. -/
def Log.Counts (log : Log) : Prop :=
  ∀ format args, Logger.placeholders format.toList = args.length → log format args = .ok ()

lemma Logger.counts_log : Log.Counts Logger.log := fun _ _ => Logger.log_eq_ok
lemma Logger.counts_silent : Log.Counts Logger.silent := fun _ _ _ => rfl

end LowLatencyExchange
