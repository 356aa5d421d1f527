import Orchestrator.Harness.Proof.Sessions
import Orchestrator.Worker.Proof.Stranded
import Orchestrator.Api.Proof.Workers
import Orchestrator.Persistence.Proof.Ordering
import Orchestrator.Persistence.Proof.Locking
import Orchestrator.Harness.Proof.Events
import Orchestrator.Worker.Proof.Leaks
import Orchestrator.Worker.Proof.Publishing
import Orchestrator.Api.Proof.Auth
import Orchestrator.Api.Proof.Cleanup
import Orchestrator.Api.Proof.Events
import Orchestrator.Persistence.Proof.Truth
import Orchestrator.Storage.Proof.Restart
import Orchestrator.Worker.Proof.Daemon
import Orchestrator.Harness.Proof.Redaction
import Orchestrator.Harness.Proof.Containers
import Orchestrator.Runtime.Proof.Adoption
import Orchestrator.Runtime.Proof.Cleanup
import Orchestrator.Runtime.Proof.Credentials
import Orchestrator.Storage.Proof.Leases
import Orchestrator.Worktree.Proof.Destroy
import Orchestrator.Harness.Proof.Polling
import Orchestrator.Persistence.Proof.Finalizing
import Orchestrator.Worktree.Proof.Names
import Orchestrator.Storage.Proof.Names
import Orchestrator.Api.Proof.Names
