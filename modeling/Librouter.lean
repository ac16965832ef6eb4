import Librouter.Foundations.Bucket
import Librouter.Foundations.Dict
import Librouter.Foundations.Grouping
import Librouter.Foundations.Json
import Librouter.Foundations.Mutex
import Librouter.Foundations.Pacing
import Librouter.Foundations.Runs
import Librouter.Foundations.Table
import Librouter.Foundations.WeightedDraw
import Librouter.Models
import Librouter.Models.Validate
import Librouter.RedisState.Keys
import Librouter.RedisState.Scripts
import Librouter.Ratelimit.Window
import Librouter.Ratelimit.Clamp
import Librouter.Ratelimit.Invisible
import Librouter.Ratelimit.Skew
import Librouter.Breaker.FleetWindow
import Librouter.Breaker.Reopen
import Librouter.Routing.Idle
import Librouter.Routing.Picks
import Librouter.Routing.Shares
import Librouter.Routing.RefreshLoop
import Librouter.Routing.FailedTick
import Librouter.Routing.Window
import Librouter.ConfigStore.RoundTrip
import Librouter.ConfigStore.Atomicity
import Librouter.ConfigStore.Torn
import Librouter.ConfigStore.Cache
import Librouter.ConfigStore.SingleFlight
import Librouter.ConfigStore.Reload
import Librouter.Accounting.Metric
import Librouter.Auth.Staleness
import Librouter.Auth.Monotone
import Librouter.Auth.Lru
import Librouter.Auth.Seeding
import Librouter.Logging
import Librouter.Providers.Conversations
import Librouter.Providers.Malformed
import Librouter.Router.Failover
import Librouter.Router.Deadline
import Librouter.Router.Success
import Librouter.App.Accounted
import Librouter.App.Metrics
import Librouter.App.DailyCap
import Librouter.App.Ledger
import Librouter.App.Usage
import Librouter.App.Counters
import Librouter.App.Throttle
import Librouter.App.Authorized
import Librouter.App.Requests
import Librouter.App.Storable
import Librouter.App.Breakers
import Librouter.App.Caps
import Librouter.App.Holder
import Librouter.App.Callable
import Librouter.App.Gauges
import Librouter.App.Signals
import Librouter.Db.Migrations
