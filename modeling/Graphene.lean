import Graphene.Accounts.WithdrawSchedule
import Graphene.Assets.Backing
import Graphene.Chain.AccountMembers
import Graphene.Chain.Agreement
import Graphene.Chain.CustomAuthority
import Graphene.Chain.Irreversibility
import Graphene.Chain.NestedExecution
import Graphene.Chain.Reindex
import Graphene.Chain.ReviewPeriod
import Graphene.Chain.WitnessSchedule
import Graphene.Db.FailedModify
import Graphene.Funds.FlashLoan
import Graphene.Funds.RepaymentRounding
import Graphene.Maintenance.AccountMaintenance
import Graphene.Maintenance.ParameterLimits
import Graphene.Market.BookRuns
import Graphene.Market.FairMatching
import Graphene.Market.Revival
import Graphene.Market.SettlementPool
import Graphene.Pools.ShareHolders
import Graphene.Protocol.AccountName
import Graphene.Protocol.AddressAuthority
import Graphene.Protocol.RestrictionOptional
import Graphene.Tickets.Locks
import Graphene.Tickets.OwnTickets
