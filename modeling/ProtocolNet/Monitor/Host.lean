import ProtocolNet.Monitor

namespace ProtocolNet

-- A monitor and the violations that its host has been told of. Events pass by a
-- monitor that is not watching.
structure Host where
  monitor : Monitor
  watching : Bool
  violations : List Violation

namespace Host

inductive Stop where
  | violation (violation : Violation) (report : Str)
  | fault (fault : TextFault)

structure Reply where
  host : Host
  output : Str
  stopped : Option Stop

-- A violation is kept before its report is made. A host that fails fast stops at the
-- first one, any other reports it and goes on.
def emit (host : Host) (event : Event) (location : Option SourceLocation) : Reply :=
  if host.watching then
    let outcome := host.monitor.observe event location
    let host := { host with monitor := outcome.monitor }
    match outcome.result with
    | .error fault => ⟨host,outcome.output,some (.fault fault)⟩
    | .ok none => ⟨host,outcome.output,none⟩
    | .ok (some violation) =>
      let host := { host with violations := host.violations ++ [violation] }
      match violation.report with
      | .error fault => ⟨host,outcome.output,some (.fault fault)⟩
      | .ok report =>
        if host.monitor.failFast then ⟨host,outcome.output,some (.violation violation report)⟩
        else
          let logger := host.monitor.logger
          match logger.write (Console.violation logger.level report) with
          | .error fault => ⟨host,outcome.output,some (.fault fault)⟩
          | .ok told => ⟨host,outcome.output ++ told,none⟩
  else ⟨host,[],none⟩

end Host

end ProtocolNet
