import NBDataBase.Orm.Aligned
import NBDataBase.Orm.Declared
import NBDataBase.Orm.Keys
import NBDataBase.Orm.Upsert
import NBDataBase.Orm.Batch
import NBDataBase.Orm.Concurrent
import NBDataBase.Orm.Named
import NBDataBase.Orm.Registration
import NBDataBase.Orm.RoundTrip
import NBDataBase.Orm.History
import NBDataBase.Orm.Unconditional
import NBDataBase.Orm.Transactions
import NBDataBase.Session.Fence
import NBDataBase.Session.Instances
import NBDataBase.Session.Paths
import NBDataBase.Upgrade.Versions
import NBDataBase.Orm.Distinct
import NBDataBase.Orm.Sets
import NBDataBase.Orm.JoinQueries
import NBDataBase.Orm.Singles
import NBDataBase.Orm.Strings
import NBDataBase.Orm.Scalars
import NBDataBase.Orm.UpsertColumns
import NBDataBase.Orm.LeftJoin
import NBDataBase.Orm.Casing
import NBDataBase.Lib.Occurrences
import NBDataBase.Orm.Markers
import NBDataBase.Orm.BeginClass
import NBDataBase.Upgrade.Saved
import NBDataBase.Orm.Selects
import NBDataBase.Orm.Shapes
import NBDataBase.Orm.Runs
import NBDataBase.Orm.Store
import NBDataBase.Orm.Clients
import NBDataBase.Orm.Independent
import NBDataBase.Orm.Releases
import NBDataBase.Orm.Crud
import NBDataBase.Orm.Pages
import NBDataBase.Orm.Readers
import NBDataBase.Orm.Reread
import NBDataBase.Orm.Durable
import NBDataBase.Orm.Retries
