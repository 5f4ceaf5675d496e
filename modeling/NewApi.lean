import NewApi.Billing.Charges
import NewApi.Stream.BillingMachine
import NewApi.Stream.Commit
import NewApi.Stream.Delivery
import NewApi.Task.Terminal
import NewApi.Task.Refunds
import NewApi.Task.Passes
import NewApi.Task.Progress
import NewApi.Subscription.Refunds
import NewApi.Subscription.Maintenance
import NewApi.Subscription.Periods
import NewApi.Subscription.Renewals
import NewApi.Subscription.Requests
import NewApi.Subscription.GroupReturn
import NewApi.Wallet.Overspend
import NewApi.TopUp.Credits
import NewApi.Token.Usable
import NewApi.RateLimit.Limits
import NewApi.Relay.Isolation
import NewApi.TwoFactor.Lockout
import NewApi.SystemTask.Leases
import NewApi.User.Restricted
import NewApi.User.AuthFloor
import NewApi.Session.Refresh
import NewApi.Token.LiveQuota
import NewApi.Channel.Disabled
import NewApi.Channel.Agreement
import NewApi.Channel.Sources
import NewApi.Channel.Keys
import NewApi.Channel.Recovery
import NewApi.App.Dispatch
import NewApi.Subscription.Advance
import NewApi.Billing.TieredTokens
import NewApi.Billing.TaskPrice
import NewApi.Channel.Weights
import NewApi.Relay.ClaudeChunks
import NewApi.Relay.NegativeIndex
import NewApi.Plugin.Routes
