import QueueDrain.Amqp.Console
import QueueDrain.Backoff.Json
import QueueDrain.Drain.Series
import QueueDrain.Main
import QueueDrain.Poller.Readings
import QueueDrain.Poller.Usage
import QueueDrain.Scenario
import QueueDrain.Transcript
import QueueDrain.Proofs.Course
import QueueDrain.Proofs.Broker
import QueueDrain.Proofs.Conduct
import QueueDrain.Proofs.Conservation
import QueueDrain.Proofs.Drained
import QueueDrain.Proofs.Interrupt
import QueueDrain.Proofs.Proceedings
import QueueDrain.Proofs.Backpressure
import QueueDrain.Proofs.Graceful
import QueueDrain.Proofs.Failures
import QueueDrain.Proofs.Recovery
import QueueDrain.Proofs.Conflict
import QueueDrain.Proofs.Readings
import QueueDrain.Proofs.Faultless
import QueueDrain.Proofs.Smooth
import QueueDrain.Proofs.Progress
import QueueDrain.Proofs.Completion
import QueueDrain.Proofs.Declarations
import QueueDrain.Proofs.Outcome
import QueueDrain.Proofs.Images
import QueueDrain.Proofs.Logins
import QueueDrain.Proofs.Credentials
import QueueDrain.Proofs.Dialogue
import QueueDrain.Proofs.Conversation
import QueueDrain.Proofs.Conformance
import QueueDrain.Proofs.Attempts
import QueueDrain.Proofs.Polling
import QueueDrain.Proofs.Resumption
import QueueDrain.Proofs.Rejections
import QueueDrain.Proofs.Backoff
import QueueDrain.Proofs.Waits
import QueueDrain.Proofs.Series
import QueueDrain.Proofs.Establishment
import QueueDrain.Proofs.Configuration
import QueueDrain.Proofs.Authorities
import QueueDrain.Proofs.Hosts
import QueueDrain.Proofs.Escapes
import QueueDrain.Proofs.Policies
import QueueDrain.Proofs.Reports
import QueueDrain.Proofs.Exits
