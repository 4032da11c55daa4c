import EventCalendar.Config.Logging
import EventCalendar.Http.Router
import EventCalendar.Proofs.ConjoinedConditions
import EventCalendar.Proofs.JoinedFilters
import EventCalendar.Proofs.NewEvent
import EventCalendar.Proofs.Paging
import EventCalendar.Proofs.ScopedListing
import EventCalendar.Proofs.StatementRuns
import EventCalendar.Proofs.WindowParameters
import EventCalendar.Store.Typed
import EventCalendar.Proofs.RequestParameters
import EventCalendar.Proofs.ListingFailures
import EventCalendar.Proofs.EventsPage
import EventCalendar.Proofs.AllOrNothing
import EventCalendar.Proofs.RenamedPlaceholders
import EventCalendar.Proofs.StoredRecord
import EventCalendar.Proofs.ModuleHistory
import EventCalendar.Proofs.CalendarDate
import EventCalendar.Proofs.NearestDouble
import EventCalendar.Proofs.EpochSeconds
import EventCalendar.Proofs.SecondsText
import EventCalendar.Proofs.WrittenTime
import EventCalendar.Proofs.DroppedFraction
import EventCalendar.Proofs.FilterValues
import EventCalendar.Proofs.IdLists
import EventCalendar.Proofs.RecordScope
import EventCalendar.Proofs.ConsecutiveWindows
import EventCalendar.Proofs.ReversedOrders
import EventCalendar.Proofs.ParameterMarks
import EventCalendar.Proofs.DimensionText
import EventCalendar.Proofs.StatementHalves
