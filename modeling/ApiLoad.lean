import ApiLoad.AccessQuota.Accounting
import ApiLoad.AccessQuota.CheckpointInvariant
import ApiLoad.AccessQuota.RetryTime
import ApiLoad.Scheduling.Fairness
import ApiLoad.Scheduling.Restart
import ApiLoad.Scheduler.Agreement
import ApiLoad.Scheduler.Total
import ApiLoad.Health.Contract
import ApiLoad.Registry.Run
import ApiLoad.Registry.Probe
import ApiLoad.UsageAggregation.ExactlyOnce
import ApiLoad.Wsnative.Isolation
import ApiLoad.State.ResponseOwnership
import ApiLoad.ResourceBinding.Agreement
import ApiLoad.HttpRoute.Ownership
import ApiLoad.StreamRewrite.Chunking
import ApiLoad.Pricing.Issued
import ApiLoad.Pricing.PriceText
import ApiLoad.Requestredact.Returned
import ApiLoad.Bifrost.Safety
import ApiLoad.Bifrost.Retirement
import ApiLoad.HttpRoute.StaticPath
import ApiLoad.Subscription.Durability
import ApiLoad.Dialect.AnthropicStream
import ApiLoad.Affinity.Key
