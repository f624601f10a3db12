import BankServices.Core.Fallible
import BankServices.Core.Txn
import BankServices.Core.RowLock
import BankServices.Core.LockOrder
import BankServices.Core.Sessions
import BankServices.Core.Sequential
import BankServices.Core.Linearizable
import BankServices.Core.Timeouts
import BankServices.Core.Potential
import BankServices.Core.Draining
import BankServices.Core.InTurn
import BankServices.Core.KeyedList
import BankServices.Core.HalfUp
import BankServices.Core.Digits
import BankServices.Java.BigDecimal
import BankServices.Java.LocalDateTime
import BankServices.Java.DateTimeFormatter
import BankServices.Storage.Schema
import BankServices.Storage.Rows
import BankServices.Storage.Statements
import BankServices.Storage.H2
import BankServices.Webapp.Response
import BankServices.Webapp.Validation
import BankServices.Webapp.ShutdownHook
import BankServices.Webapp.HttpServerCompletionHandler
import BankServices.Webapp.WebAppBase
import BankServices.Webapp.GracefulShutdown
import BankServices.Webapp.Exit
import BankServices.Webapp.Report
import BankServices.Webapp.LocalDateTimeParamConverterProvider
import BankServices.Webapp.JaxRsApplicationFactory
import BankServices.Api.PaymentEndpoint
import BankServices.Api.PaymentRun
import BankServices.Api.PaymentLocks
import BankServices.Api.PaymentList
import BankServices.Api.AccountEndpoint
import BankServices.Api.AccountRun
import BankServices.Api.Refusals
import BankServices.Service.Machine
import BankServices.Service.Isolation
import BankServices.Service.Ledger
import BankServices.Service.Overdraft
import BankServices.Service.Books
import BankServices.Service.TimeOrder
import BankServices.Service.Deletion
import BankServices.Service.Alone
import BankServices.Service.Answers
import BankServices.Service.Search
import BankServices.Service.Amounts
import BankServices.Service.CreateRead
import BankServices.Service.InTurn
import BankServices.Service.Profiles
import BankServices.Service.AnyOrder
import BankServices.Service.Bank
import BankServices.Service.Refinement
import BankServices.Service.Linearized
import BankServices.Service.Supply
import BankServices.Service.Draining
import BankServices.Service.ExactlyOnce
