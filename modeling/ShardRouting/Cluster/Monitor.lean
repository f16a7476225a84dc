import ShardRouting.Cluster.World

/-!
# Health checks

A monitor takes datasources with reported failures out of use and validates them on every check
until they answer again. Main content: `World.validate`, `Monitor.check` and `Monitor.watch`, which
checks at regular times.
-/

namespace ShardRouting

/-- What the validation of a datasource came to. -/
inductive CheckStatus where
  /-- It answers again. -/
  | recovered
  /-- It failed, with an error. -/
  | failed (e : SqlError)
  /-- It crashed. -/
  | panicked
  /-- It took longer than the monitor waits. -/
  | timedOut
  deriving DecidableEq, Repr

/-- A length of time in milliseconds as messages show it: seconds with as many places as needed,
milliseconds below one second. -/
def durationText (ms : Nat) : String :=
  if ms = 0 then "0ns"
  else if ms < 1000 then toString ms ++ "ms"
  else
    let places := (toString (1000 + ms % 1000)).toList.drop 1
    let fraction := (places.reverse.dropWhile fun c => c = '0').reverse
    toString (ms / 1000) ++ String.ofList (if fraction = [] then [] else '.' :: fraction) ++ "s"

/-- The error of a validation that took longer than its datasource allows. -/
def validationTimeout (ms : Nat) : SqlError :=
  ⟨0, some "08000", "validation timed out after " ++ durationText ms⟩

/-- How much time a validation has: the limit of the datasource or that of the monitor, whichever
ends first, and what it comes to at that time. -/
def validationLimit (own monitor : Nat) : Nat × CheckStatus :=
  if own ≤ monitor then (own, .failed (validationTimeout own)) else (monitor, .timedOut)

namespace World

/-- The milliseconds after which an open connection answers a validation, where it is asked. -/
def probeDelay (w : World) (d : Datasource) : Nat :=
  match w.style, d.settings.validationQuery with
  | .native, _ => (w.behaviour d.uid).validateDelay
  | .composed, some _ => (w.behaviour d.uid).delay
  | .composed, none => 0

/-- Asks over an open connection whether a datasource answers. -/
def probe (w : World) (d : Datasource) (number : Nat) : CheckStatus × World :=
  let b := w.behaviour d.uid
  match w.style, d.settings.validationQuery with
  | .native, query =>
    let w := w.logCall ⟨d.uid, number, .validate, query, [], true⟩
    if b.validatePanic then (.panicked, w)
    else (b.validateError.elim .recovered .failed, w)
  | .composed, some query =>
    match w.call ⟨d.uid, number⟩ .query query [[]] with
    | (.ok _, w) => (.recovered, w)
    | (.error e, w) => (.failed e, w)
  | .composed, none => (.recovered, w)

/-- Validates a datasource over a new connection: what came of it, how long it took, and the world
behind it. -/
def validate (w : World) (d : Datasource) (monitorTimeout : Nat) : CheckStatus × Nat × World :=
  let (limit, late) := validationLimit d.settings.validationTimeout monitorTimeout
  let connected := (w.behaviour d.uid).connectDelay
  if limit < connected then (late, limit, w)
  else
    match w.openConnection d.uid with
    | (.error e, w) => (.failed e, connected, w)
    | (.ok number, w) =>
      let answered := connected + w.probeDelay d
      if limit < answered then (late, limit, w)
      else
        let (status, w) := w.probe d number
        (status, answered, w)

end World

/-- A monitor: the datasources that it has taken out of use, in ascending order. -/
structure Monitor where
  /-- The datasources that are validated on every check. -/
  suspects : List String := []

namespace Monitor

/-- Takes datasources with reports out of use, each on its first report. -/
def demoteAll (suspects : List String) (r : Repository) : List String → List String × Repository
  | [] => (suspects, r)
  | uid :: uids =>
    if suspects.contains uid then demoteAll suspects r uids
    else demoteAll (Text.insertSorted uid suspects) (r.demote uid).2 uids

/-- What a check has done so far. -/
structure Progress where
  /-- The world. -/
  world : World
  /-- The datasources that are still out of use. -/
  suspects : List String
  /-- What the validations came to, in order. -/
  results : List (String × CheckStatus) := []
  /-- How many milliseconds they took. -/
  elapsed : Nat := 0

/-- Validates one suspect; one that answers is taken back into use, one that is not there is
forgotten. -/
def checkOne (timeout : Nat) (p : Progress) (uid : String) : Progress :=
  match p.world.repository.datasource? uid with
  | none => { p with suspects := p.suspects.erase uid }
  | some d =>
    let (status, elapsed, w) := p.world.validate d timeout
    let p := { p with
      world := w
      results := p.results ++ [(uid, status)]
      elapsed := p.elapsed + elapsed }
    if status = .recovered then
      { p with
        world := { w with repository := (w.repository.wake uid).2 }
        suspects := p.suspects.erase uid }
    else p

/-- One check: reports are taken, then every suspect is validated in order. -/
def check (m : Monitor) (timeout : Nat) (w : World) : Progress :=
  let (suspects, repository) := demoteAll m.suspects w.repository w.repository.reports
  let world := { w with repository := { repository with reports := [] } }
  suspects.foldl (checkOne timeout) { world, suspects }

/-- By how many milliseconds a check may be late without moving the checks behind it. -/
def tolerance : Nat := 5

/-- Checks from a time on until a monitor is stopped; the next check is due at a given time. A check
that is running when the monitor is stopped is finished first. -/
def watchFrom (s : MonitorSettings) (stop : Nat) (now due : Nat) (m : Monitor) (w : World) :
    Nat → World
  | 0 => w
  | fuel + 1 =>
    let now := max now due
    if stop ≤ now then w
    else
      let next := if due + tolerance < now then now + s.interval else due + s.interval
      let p := m.check s.validationTimeout w
      watchFrom s stop (now + p.elapsed) next ⟨p.suspects⟩ p.world fuel

/-- Checks at regular times, the first at once, until the monitor is stopped. Without time between
the checks there are none. -/
def watch (m : Monitor) (s : MonitorSettings) (stop : Nat) (w : World) : World :=
  if s.interval = 0 then w else watchFrom s stop 0 0 m w (stop + 1)

end Monitor

end ShardRouting
