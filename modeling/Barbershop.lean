import Barbershop.Lib.Table
import Barbershop.Lib.Machine
import Barbershop.Lib.History
import Barbershop.Lib.Guard
import Barbershop.Lib.Lists
import Barbershop.Core.Money
import Barbershop.Model.Db
import Barbershop.Sale.Checks
import Barbershop.Sale.Loyalty
import Barbershop.Sale.Stock
import Barbershop.Sale.Issued
import Barbershop.Sale.Create
import Barbershop.Sale.Update
import Barbershop.Sale.Delete
import Barbershop.Sale.Refund
import Barbershop.Cash.Session
import Barbershop.Package.Session
import Barbershop.Service
import Barbershop.Loyalty.Points
import Barbershop.Loyalty.Ledger
import Barbershop.Loyalty.Balance
import Barbershop.Lib.Journal
import Barbershop.Stock.Movements
import Barbershop.Stock.Conservation
import Barbershop.GiftCard.Ledger
import Barbershop.GiftCard.Writes
import Barbershop.GiftCard.Lifetime
import Barbershop.GiftCard.Refunds
import Barbershop.GiftCard.Concurrent
import Barbershop.Package.Uses
import Barbershop.Package.Concurrent
import Barbershop.Cash.Drawer
import Barbershop.Cash.Closed
import Barbershop.Lib.Reservation
import Barbershop.Lib.Calls
import Barbershop.Payment.Stripe
import Barbershop.Payment.Refund
import Barbershop.Payment.Prepaid
import Barbershop.Payment.Bill
import Barbershop.Payment.Once
import Barbershop.Payment.Deposit
import Barbershop.Payment.Hold
import Barbershop.Payment.HoldWrites
import Barbershop.Payment.Placed
import Barbershop.Club.Session
import Barbershop.Club.Uses
import Barbershop.Club.Counter
import Barbershop.Club.Cycle
import Barbershop.Plan.Account
import Barbershop.Plan.Renewal
import Barbershop.Plan.Attempts
import Barbershop.Plan.ChargedOnce
import Barbershop.Plan.Active
import Barbershop.Plan.OneActive
import Barbershop.Payroll.Payout
import Barbershop.Payroll.Ledger
import Barbershop.Payroll.Commission
import Barbershop.Payroll.PaidOnce
import Barbershop.Payroll.Settled
import Barbershop.Coupon.Reservation
import Barbershop.Coupon.Limit
import Barbershop.Rent.Order
import Barbershop.Rent.Expenses
import Barbershop.Rent.Mirrored
import Barbershop.Plan.Alone
import Barbershop.Stripe.Webhook
import Barbershop.Stripe.Ended
import Barbershop.Lib.Solo
import Barbershop.Plan.Period
import Barbershop.Plan.Refunded
import Barbershop.Plan.Upgrade
import Barbershop.Club.Closing
import Barbershop.Club.Returned
import Barbershop.Club.BillingPause
import Barbershop.Lib.Overlap
import Barbershop.Sale.Edits
import Barbershop.Agenda.Phone
import Barbershop.Agenda.Slot
import Barbershop.Lib.Classes
import Barbershop.Agenda.Public
import Barbershop.Agenda.OnePlace
import Barbershop.Agenda.Queue
import Barbershop.Platform.Featured
import Barbershop.Platform.FriendInvite
import Barbershop.Agenda.Shifts
import Barbershop.Platform.Approval
import Barbershop.Payroll.Paired
import Barbershop.Rent.Agreed
import Barbershop.Lib.Writes
import Barbershop.Payment.Dispute
import Barbershop.Payment.AppPayment
import Barbershop.Payment.Notice
import Barbershop.Payment.LostDispute
import Barbershop.Lib.Mirror
import Barbershop.Agenda.ServiceHistory
import Barbershop.Agenda.AppointmentUpdate
import Barbershop.Agenda.Link
import Barbershop.Agenda.OldLinks
import Barbershop.Agenda.Chat
import Barbershop.Agenda.ChatPrivacy
import Barbershop.Account.Passwords
import Barbershop.Account.ResetOnce
import Barbershop.Account.ChangeCode
import Barbershop.Account.LoginCode
import Barbershop.Account.Guessing
import Barbershop.Account.Social
import Barbershop.Account.SocialIdentity
import Barbershop.Social.PostOnce
import Barbershop.Rent.Ended
import Barbershop.Platform.ProMonths
import Barbershop.Agenda.OfferedOnce
import Barbershop.Sale.Parts
import Barbershop.Payment.RefundParts
import Barbershop.Package.SessionValue
import Barbershop.Lib.UnionFind
import Barbershop.Marketing.Recipients
import Barbershop.Lib.Calendar
import Barbershop.Lib.LocalTime
import Barbershop.Core.Timezone
import Barbershop.Core.LocalDays
import Barbershop.Payment.PayoutReport
import Barbershop.Lib.Tally
import Barbershop.Cash.Summary
import Barbershop.Core.Written
import Barbershop.Import.Cells
import Barbershop.Import.Sheet
import Barbershop.Import.Dates
import Barbershop.Agenda.WorkingWindow
import Barbershop.Agenda.PublicSlots
import Barbershop.Agenda.SlotDates
import Barbershop.Import.Amounts
import Barbershop.Lib.Folding
import Barbershop.Calendar.Ics
import Barbershop.Import.Outcomes
import Barbershop.Lib.Spans
import Barbershop.Coupon.PaidMonths
import Barbershop.Import.RoundTrip
import Barbershop.Lib.Latest
import Barbershop.Account.History
import Barbershop.Lib.Months
import Barbershop.Payroll.Share
import Barbershop.Agenda.PhoneForms
import Barbershop.Agenda.Contacts
import Barbershop.Agenda.Schedule
import Barbershop.Agenda.NoDoubleBooking
import Barbershop.Lib.Earliest
import Barbershop.Agenda.NextSlot
import Barbershop.Agenda.NextListed
import Barbershop.Staff.JobOpening
import Barbershop.Staff.Places
import Barbershop.Staff.JobFee
import Barbershop.Staff.FeePlace
