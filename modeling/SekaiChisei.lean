import SekaiChisei.Markings.Visibility
import SekaiChisei.Parquet.Hostile
import SekaiChisei.Parquet.RoundTrip
import SekaiChisei.ObjectSecurity.Filters
import SekaiChisei.Receipts.Tamper
import SekaiChisei.Leases.Replay
import SekaiChisei.Budget.Refunds
import SekaiChisei.Budget.Pools
import SekaiChisei.Permits.Revoked
import SekaiChisei.Evaluation.Gate
import SekaiChisei.Evaluation.Validated
import SekaiChisei.ObjectLog.Schedules
import SekaiChisei.Keys.LifeCycle
import SekaiChisei.Ontology.Classes
import SekaiChisei.Ontology.Inverses
import SekaiChisei.DecisionLedger.Tamper
import SekaiChisei.GovernedAction.Survival
import SekaiChisei.Plans.Schedules
import SekaiChisei.EventStream.Checkpoints
import SekaiChisei.TenantQuota.Concurrency
import SekaiChisei.TenantQuota.Tokens
import SekaiChisei.UsageLedger.Exact
import SekaiChisei.FederatedAggregate.Federation
import SekaiChisei.Gunshi.Refined
import SekaiChisei.Reconciliation.State
import SekaiChisei.GovernedTransform.Partitions
import SekaiChisei.Budget.Late
import SekaiChisei.Shomei.Refused
import SekaiChisei.Coordination.Refused
import SekaiChisei.Gunshi.Envelope
