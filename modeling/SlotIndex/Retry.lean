import SlotIndex.Error

/-!
# Trying again

Requests to the node are tried again after failures that may pass. The waits between attempts grow by
a factor up to a limit.

* `NodeError.isRetryable`: failures that may pass.
* `RetryPolicy.delay`: the wait before an attempt.
* `retry`: a request with its calls and waits.
-/

namespace SlotIndex

/-- A letter in lower case, as far as letters without accents are concerned. The Kelvin sign is a
spelling of the letter k, and a dotted capital I is an i with a dot above. -/
def lowerLetter (c : Char) : List Char :=
  match c.toNat with
  | 0x212A => ['k']
  | 0x0130 => ['i', Char.ofNat 0x0307]
  | _ => [c.toLower]

/-- Parts of messages that speak of a passing failure. -/
def passingFailures : List String :=
  ["connection", "timeout", "timed out", "reset", "broken pipe", "network", "eof",
    "sending request", "rate limit", "too many requests", "429", "502", "503", "504",
    "internal server error", "service unavailable", "bad gateway", "temporarily", "try again",
    "retry"]

/-- Whether a text has a part. -/
def hasPart (part : List Char) : List Char → Bool
  | [] => part.isEmpty
  | c :: rest => part.isPrefixOf (c :: rest) || hasPart part rest

/-- Whether a message of the node speaks of a passing failure, in any case of its letters. -/
def isPassingFailure (message : String) : Bool :=
  let text := message.toList.flatMap lowerLetter
  passingFailures.any fun part => hasPart part.toList text

/-- Failures that may pass: those of the connection, and answers that speak of one. -/
def NodeError.isRetryable : NodeError → Bool
  | .transport _ => true
  | .invalidUrl _ => false
  | .blockNotFound _ => false
  | .provider message => isPassingFailure message

/-- How often and after which waits a request is tried again. Waits are in milliseconds. -/
structure RetryPolicy where
  maxRetries : Nat := 10
  initialDelay : Nat := 500
  maxDelay : Nat := 30000
  factor : Float := 2.0

/-- A power with an exponent of at least zero, by repeated squaring. The steps bound the number of
binary digits of the exponent. -/
def powerSteps : (steps : Nat) → (base result : Float) → (exponent : Nat) → Float
  | 0, _, result, _ => result
  | steps + 1, base, result, n =>
    let result := if n % 2 = 1 then result * base else result
    if n / 2 = 0 then result else powerSteps steps (base * base) result (n / 2)

/-- A power with an integer exponent. -/
def power (base : Float) (exponent : Int) : Float :=
  let p := powerSteps 64 base 1.0 exponent.natAbs
  if exponent < 0 then 1.0 / p else p

/-- The exponent of an attempt: one less than its number, as a signed 32-bit number. -/
def delayExponent (attempt : Nat) : Int :=
  (Int.bmod attempt UInt32.size - 1).bmod UInt32.size

/-- The wait before an attempt; the first attempt has the number zero. -/
def RetryPolicy.delay (p : RetryPolicy) (attempt : Nat) : Nat :=
  if attempt = 0 then 0
  else
    let ms := Float.ofNat p.initialDelay * power p.factor (delayExponent attempt)
    min ms.toUInt64.toNat p.maxDelay

/-- The longest time that a timer runs: thirty years. -/
def longestTimer : Nat := 946080000000

/-- What is done in the course of a request. -/
inductive RetryStep where
  /-- A timer is set. -/
  | wait (time : Nat)
  /-- The request is made; the first attempt has the number zero. -/
  | call (attempt : Nat)
  /-- No attempt is left. -/
  | giveUp
deriving DecidableEq

namespace RetryStep

/-- Whether a request is made. -/
def isCall : RetryStep → Bool
  | .call _ => true
  | .wait _ | .giveUp => false

/-- The time to which a timer is set. -/
def delay? : RetryStep → Option Nat
  | .wait time => some time
  | .call _ | .giveUp => none

end RetryStep

/-- What a request has come to. -/
structure RetryRun (α : Type) where
  result : Except NodeError α
  /-- What was done, in order. -/
  steps : List RetryStep

namespace RetryRun

variable {α : Type}

/-- The number of calls. -/
def calls (r : RetryRun α) : Nat := r.steps.countP RetryStep.isCall

/-- The times to which timers were set before the second and later calls, in order. -/
def delays (r : RetryRun α) : List Nat := r.steps.filterMap RetryStep.delay?

/-- How long the timers ran. -/
def waits (r : RetryRun α) : List Nat := r.delays.map fun time => min time longestTimer

end RetryRun

/-- The steps of one attempt. -/
def RetryPolicy.attemptSteps (p : RetryPolicy) (attempt : Nat) : List RetryStep :=
  if attempt = 0 then [.call 0] else [.wait (p.delay attempt), .call attempt]

/-- Attempts from a number on, in at most the given number of steps, behind a last failure. -/
def retryFrom {α : Type} (p : RetryPolicy) (outcome : Nat → Except NodeError α) :
    (steps attempt : Nat) → (last : Option NodeError) → RetryRun α
  | 0, _, last => ⟨.error (last.getD (.provider "Unknown error")), [.giveUp]⟩
  | steps + 1, attempt, _ =>
    let own := p.attemptSteps attempt
    match outcome attempt with
    | .ok a => ⟨.ok a, own⟩
    | .error e =>
      if e.isRetryable ∧ attempt < p.maxRetries then
        let r := retryFrom p outcome steps (attempt + 1) (some e)
        ⟨r.result, own ++ r.steps⟩
      else ⟨.error e, own⟩

/-- A request whose attempts have the given outcomes. -/
def retry {α : Type} (p : RetryPolicy) (outcome : Nat → Except NodeError α) : RetryRun α :=
  retryFrom p outcome (p.maxRetries + 1) 0 none

end SlotIndex
