import ApiLoad.Health.Decision

/-!
# Rate limit headers

When a rate limited upstream says that it accepts requests again (`internal/health/ratelimit.go`).
-/
namespace ApiLoad.Health
open Foundation Text Execution

/-- The text functions of the standard library that the package calls: letters, and the formats in
which a time or a duration may be written. -/
structure Library extends Folding where
  parseHTTPTime : String → Option Time
  parseRFC3339 : String → Option Time
  parseDuration : String → Option Duration

def maxRateLimitResetDelay : Duration := 3600000000000

def matchingHeaderValues (lib : Library) (header : Header) (isMatch : String → Bool) :
    List String :=
  (header.filter fun field => isMatch (lib.toLower field.1)).flatMap Prod.snd

/-- The time that one value of an explicit `Retry-After` names. -/
def explicitRetryAfter (lib : Library) (now : Time) (value : String) : Option Time :=
  let value := trimSpace value
  match parseInt value with
  | some seconds =>
    if seconds ≤ 0 ∨ maxCooldownSeconds.toInt < seconds then none else some (now.addSeconds seconds)
  | none => lib.parseHTTPTime value

def parseExplicitRetryAfter (lib : Library) (header : Header) (now : Time) : Option Time :=
  let latest := (matchingHeaderValues lib header (· = "retry-after")).foldl (fun latest value =>
    match explicitRetryAfter lib now value with
    | some until_ => if now < until_ ∧ latest < until_ then until_ else latest
    | none => latest) (0 : Time)
  if latest.isZero then none else some latest

def parseRetryAfter (lib : Library) (value : String) (now : Time) : Option Time :=
  let trimmed := trimSpace value
  match parseInt trimmed with
  | some seconds =>
    if seconds ≤ 0 ∨ 3600 < seconds then none else some (now.addSeconds seconds)
  | none => lib.parseHTTPTime trimmed

def parseResetValue (lib : Library) (value : String) (now : Time) : Option Time :=
  let trimmed := trimSpace value
  match lib.parseRFC3339 trimmed, lib.parseDuration trimmed with
  | some reset, _ => some reset
  | none, some duration =>
    if duration ≤ 0 ∨ maxRateLimitResetDelay < duration then none else some (now.add duration)
  | none, none =>
    (parseInt trimmed).bind fun numeric =>
      if 1000000000000 ≤ numeric then some (Time.ofUnixMilli numeric)
      else if 1000000000 ≤ numeric then some (Time.unix numeric)
      else if 0 < numeric ∧ numeric ≤ 3600 then some (now.addSeconds numeric)
      else none

def latestValidReset (lib : Library) (values : List String) (now : Time) (retryAfter : Bool) :
    Option Time :=
  let limit := now.add maxRateLimitResetDelay
  let latest := values.foldl (fun latest value =>
    let parsed :=
      if retryAfter then parseRetryAfter lib value now else parseResetValue lib value now
    match parsed with
    | some reset =>
      if ¬ now < reset ∨ limit < reset then latest
      else if latest.isZero ∨ latest < reset then reset
      else latest
    | none => latest) (0 : Time)
  if latest.isZero then none else some latest

/-- The first of the three header families that yields a time decides. -/
def parseRateLimitReset (lib : Library) (header : Header) (now : Time) : Option Time :=
  let family := fun isMatch retryAfter =>
    latestValidReset lib (matchingHeaderValues lib header isMatch) now retryAfter
  family (· = "retry-after") true
    <|> family (fun name => hasPrefix name "anthropic-ratelimit-" && hasSuffix name "-reset") false
    <|> family (fun name => name = "x-ratelimit-reset" || hasPrefix name "x-ratelimit-reset-") false

variable {lib : Library} {now until_ : Time}

theorem latestValidReset_ne_zero (h : latestValidReset lib values now retryAfter = some until_) :
    until_ ≠ 0 := by
  unfold latestValidReset at h
  grind [Time.isZero]

theorem parseExplicitRetryAfter_ne_zero (h : parseExplicitRetryAfter lib header now = some until_) :
    until_ ≠ 0 := by
  unfold parseExplicitRetryAfter at h
  grind [Time.isZero]

theorem parseRateLimitReset_ne_zero (h : parseRateLimitReset lib header now = some until_) :
    until_ ≠ 0 := by
  simp only [parseRateLimitReset, Option.orElse_eq_orElse, Option.orElse_eq_or,
    Option.or_eq_some_iff] at h
  rcases h with h | ⟨-, h | ⟨-, h⟩⟩ <;> exact latestValidReset_ne_zero h

end ApiLoad.Health
