import Throttle.Http.Header
import Throttle.Time.Moment

/-!
The settings of a limiter: how sends are spaced, how long things may take, and what a configuration
must satisfy before a limiter runs on it.
-/

namespace Throttle

/-- The settings that are numbers, in the order in which they are written. -/
inductive Setting where
  | normalBuffer
  | borderlineBuffer
  | minimumInterval
  | violationBuffer
  | defaultRetryAfter
  | requestTimeout
  | invalidPolicyBackoff
  | statusInterval
  | eventCapacity
  deriving DecidableEq, Repr

namespace Setting

def all : List Setting :=
  [normalBuffer, borderlineBuffer, minimumInterval, violationBuffer, defaultRetryAfter,
    requestTimeout, invalidPolicyBackoff, statusInterval, eventCapacity]

/-- The name of a setting, which says its unit. -/
def key : Setting → String
  | normalBuffer => "normal_buffer_ms"
  | borderlineBuffer => "borderline_buffer_ms"
  | minimumInterval => "minimum_interval_ms"
  | violationBuffer => "violation_buffer_ms"
  | defaultRetryAfter => "default_retry_after_s"
  | requestTimeout => "request_timeout_ms"
  | invalidPolicyBackoff => "invalid_policy_backoff_ms"
  | statusInterval => "status_interval_ms"
  | eventCapacity => "event_capacity"

def default : Setting → UInt64
  | normalBuffer => 250
  | borderlineBuffer => 2000
  | minimumInterval => 500
  | violationBuffer => 5200
  | defaultRetryAfter => 60
  | requestTimeout => 60000
  | invalidPolicyBackoff => 60000
  | statusInterval => 1000
  | eventCapacity => 256

/-- The setting with a name. -/
def ofKey? (key : String) : Option Setting := all.find? (·.key = key)

theorem mem_all (s : Setting) : s ∈ all := by cases s <;> decide

theorem key_inj {s t : Setting} (h : s.key = t.key) : s = t := by
  cases s <;> cases t <;> first | rfl | (exact absurd h (by decide))

end Setting

/-- The name of the setting that is a text. -/
def userAgentKey : String := "user_agent"

/-- The settings of a limiter. -/
structure Config where
  number : Setting → UInt64
  /-- The `User-Agent` of the requests that bring none. -/
  userAgent : Option String

namespace Config

def default : Config := ⟨Setting.default, none⟩

/-- Changes one number. -/
def set (c : Config) (s : Setting) (n : UInt64) : Config :=
  { c with number := fun t => if t = s then n else c.number t }

/-- The delay of a setting in milliseconds. -/
def millis (c : Config) (s : Setting) : Delay := Delay.ofMillis (c.number s).toNat

/-- Added to the safe instant while the limits are far. -/
def normalBuffer (c : Config) : Delay := c.millis .normalBuffer

/-- Added to the safe instant once a limit is near. -/
def borderlineBuffer (c : Config) : Delay := c.millis .borderlineBuffer

/-- The least time between two sends of one policy. -/
def minimumInterval (c : Config) : Delay := c.millis .minimumInterval

/-- Added to the wait after a violation. -/
def violationBuffer (c : Config) : Delay := c.millis .violationBuffer

/-- The wait after a violation for which the server names none. -/
def defaultRetryAfter (c : Config) : Delay := Delay.ofSeconds (c.number .defaultRetryAfter).toNat

/-- How long a request may be under way. -/
def requestTimeout (c : Config) : Delay := c.millis .requestTimeout

/-- How long a policy rests after headers that make no sense. -/
def invalidPolicyBackoff (c : Config) : Delay := c.millis .invalidPolicyBackoff

/-- The time between two reports of a pause. -/
def statusInterval (c : Config) : Delay := c.millis .statusInterval

/-- How many notifications a slow listener may fall behind. -/
def eventCapacity (c : Config) : Nat := (c.number .eventCapacity).toNat

/-- Sets how long a request may be under way, in whole milliseconds. -/
def withRequestTimeout (c : Config) (d : Delay) : Config :=
  c.set .requestTimeout (UInt64.ofNat (min (d / Delay.perMilli) (UInt64.size - 1)))

def withUserAgent (c : Config) (s : String) : Config := { c with userAgent := some s }

end Config

/-- What is wrong with a configuration. -/
inductive ConfigError where
  /-- The document cannot be read at this place. -/
  | parse (path : String)
  /-- A setting has a value it must not have. -/
  | invalid (key reason : String)
  deriving DecidableEq, Repr

namespace ConfigError

def message : ConfigError → String
  | parse path =>
    "Scheduler configuration is not valid JSON at " ++ String.ofList ('`' :: path.toList) ++ "`."
  | invalid key reason =>
    "Scheduler configuration field " ++ String.ofList ('`' :: key.toList) ++ "` is invalid: " ++
      reason ++ "."

end ConfigError

namespace Config

/-- The settings that must not be zero, in the order in which they are looked at. -/
def positive : List (Setting × String) :=
  [(.requestTimeout, "the watchdog must be positive"),
    (.statusInterval, "the status tick must be positive"),
    (.eventCapacity, "the notification channel needs room for at least one event"),
    (.invalidPolicyBackoff,
      "a malformed policy must suspend the queue for a positive duration")]

/-- The user agent, if there is one, can stand in a header. -/
def userAgentFits (c : Config) : Bool :=
  match c.userAgent with
  | none => true
  | some s => (Http.HeaderValue.ofString? s).isSome

/-- The first fault of a configuration. -/
def fault? (c : Config) : Option ConfigError :=
  match positive.find? fun (s, _) => c.number s = 0 with
  | some (s, reason) => some (.invalid s.key reason)
  | none =>
    if c.userAgentFits then none
    else some (.invalid userAgentKey "the value is not a valid header value")

/-- A configuration that a limiter can run on. -/
def Valid (c : Config) : Prop := c.fault? = none

end Config

end Throttle
