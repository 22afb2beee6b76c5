import Deskhand.Record.Shape
import Deskhand.World.Duration

/-!
# Recovery settings

How often and how patiently to try to reach a site again. An exception handler may have settings of
its own, which win over the common ones.
-/

namespace Deskhand

/-- The common settings. -/
structure RecoveryConfig where
  maxRetries : Nat
  minBackOffSeconds : Nat
  maxBackOffSeconds : Nat
  referenceSite : String
  /-- Names of screen records that mean that a page did not load. -/
  faultNames : List String
  pageStackCapacity : Nat
  deriving DecidableEq

namespace RecoveryConfig

def shape : Shape where
  name := "RecoveryConfig"
  fields := [.defaulted "max_retries" .nat32 (.int 3),
    .defaulted "min_retry_back_off_secs" .nat64 (.int 3),
    .defaulted "max_retry_back_off_secs" .nat64 (.int 10),
    .defaulted "reference_site" .text (.text "example.com"),
    .defaulted "fault_names" (.listOf .text)
      (.list [.text "site_not_reached", .text "bad_request"]),
    .defaulted "page_stack_capacity" .size (.int 3)]

/-- The settings in a record of the shape. -/
def ofEntries (r : Entries Value) : RecoveryConfig where
  maxRetries := r.nat "max_retries"
  minBackOffSeconds := r.nat "min_retry_back_off_secs"
  maxBackOffSeconds := r.nat "max_retry_back_off_secs"
  referenceSite := r.text "reference_site"
  faultNames := r.texts "fault_names"
  pageStackCapacity := r.nat "page_stack_capacity"

/-- The settings that a value denotes. -/
def ofValue (v : Value) : Except ShapeFault RecoveryConfig := (shape.read v).map ofEntries

/-- The record of the settings. -/
def toValue (c : RecoveryConfig) : Value :=
  .object [("max_retries", .int c.maxRetries),
    ("min_retry_back_off_secs", .int c.minBackOffSeconds),
    ("max_retry_back_off_secs", .int c.maxBackOffSeconds),
    ("reference_site", .text c.referenceSite), ("fault_names", .list (c.faultNames.map .text)),
    ("page_stack_capacity", .int c.pageStackCapacity)]

/-- The settings if nothing else is said. -/
def usual : RecoveryConfig where
  maxRetries := 3
  minBackOffSeconds := 3
  maxBackOffSeconds := 10
  referenceSite := "example.com"
  faultNames := ["site_not_reached", "bad_request"]
  pageStackCapacity := 3

end RecoveryConfig

/-- What an exception handler says about itself. -/
structure HandlerArgs where
  cause : String
  data : Value
  maxRetries : Option Nat
  minBackOffSeconds : Option Nat
  maxBackOffSeconds : Option Nat
  site : Option String

namespace HandlerArgs

def shape : Shape where
  name := "ExceptionHandlerArgs"
  fields := [.textOrEmpty "cause", .anyOrNull "cdata", .optional "max_retries" .nat32,
    .optional "min_retry_back_off" .nat64, .optional "max_retry_back_off" .nat64,
    .optional "site" .text]

def ofEntries (r : Entries Value) : HandlerArgs where
  cause := r.text "cause"
  data := r.value "cdata"
  maxRetries := r.nat? "max_retries"
  minBackOffSeconds := r.nat? "min_retry_back_off"
  maxBackOffSeconds := r.nat? "max_retry_back_off"
  site := r.text? "site"

def ofValue (v : Value) : Except ShapeFault HandlerArgs := (shape.read v).map ofEntries

/-- A number that may be missing. -/
def natOrNull (n : Option Nat) : Value :=
  match n with
  | some n => .int n
  | none => .null

def toValue (a : HandlerArgs) : Value :=
  .object [("cause", .text a.cause), ("cdata", a.data), ("max_retries", natOrNull a.maxRetries),
    ("min_retry_back_off", natOrNull a.minBackOffSeconds),
    ("max_retry_back_off", natOrNull a.maxBackOffSeconds),
    ("site", (a.site.map Value.text).getD .null)]

end HandlerArgs

/-- How to try to reach a site again. -/
structure RetryPolicy where
  maxRetries : Nat
  minBackOff : Duration
  maxBackOff : Duration
  site : String
  deriving DecidableEq

/-- The longest time that all waits together can take, unless it is too long for a duration. -/
def RetryPolicy.worstCase? (p : RetryPolicy) : Option Duration :=
  (p.maxBackOff.max p.minBackOff).times? p.maxRetries

/-- The policy for a handler, or without one. -/
def RecoveryConfig.policyFor (handler : Option HandlerArgs) (c : RecoveryConfig) : RetryPolicy :=
  match handler with
  | none =>
    ⟨c.maxRetries, .ofSeconds c.minBackOffSeconds, .ofSeconds c.maxBackOffSeconds, c.referenceSite⟩
  | some h => {
      maxRetries := h.maxRetries.getD c.maxRetries
      minBackOff := .ofSeconds (h.minBackOffSeconds.getD c.minBackOffSeconds)
      maxBackOff := .ofSeconds (h.maxBackOffSeconds.getD c.maxBackOffSeconds)
      site := (h.site.filter (· ≠ "")).getD c.referenceSite }

end Deskhand
