import Metering.Attribute.Save
import Metering.Command
import Metering.Json.Reader
import Metering.Main
import Metering.Probe.History
import Metering.Proofs.Attribute.Stopped
import Metering.Proofs.Probe.Calls
import Metering.Proofs.Probe.Instances
import Metering.Registry.Correlation
import Metering.Registry.Race
import Metering.Proofs.Registry.Entries
import Metering.Proofs.Registry.Reads
import Metering.Proofs.Probe.Events
import Metering.Proofs.Probe.Spans
import Metering.Proofs.Probe.Exposed
import Metering.Proofs.Probe.Extrema
import Metering.Proofs.Registry.Races
import Metering.Proofs.Registry.Reordered
import Metering.Proofs.Registry.Conservation
import Metering.Proofs.Compiler.Names
import Metering.Proofs.Probe.Once
import Metering.Proofs.Site.Publication
import Metering.Proofs.Probe.Failures
import Metering.Proofs.Attribute.Growth
import Metering.Proofs.Registry.Isolation
import Metering.Proofs.Attribute.Exposition
import Metering.Proofs.File.Tree
import Metering.Proofs.Command.Overwriting
import Metering.Proofs.Binding.Decoded
import Metering.Proofs.Command.Outcome
import Metering.Proofs.Config.Acceptance
import Metering.Proofs.Probe.Published
import Metering.Proofs.Compiler.Arrangement
import Metering.Proofs.Compiler.Sources
import Metering.Proofs.Attribute.Readings
import Metering.Proofs.ObjectName
import Metering.Proofs.Target
import Metering.Proofs.Probe.Turns
import Metering.Proofs.Attribute.Interference
