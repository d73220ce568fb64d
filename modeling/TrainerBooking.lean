import TrainerBooking.Main
import TrainerBooking.Json.Printer
import TrainerBooking.Store.Opening
import TrainerBooking.Web.Service
import TrainerBooking.Proofs.Accounts
import TrainerBooking.Proofs.Admission
import TrainerBooking.Proofs.Alternation
import TrainerBooking.Proofs.Apart
import TrainerBooking.Proofs.Asking
import TrainerBooking.Proofs.Atomic
import TrainerBooking.Proofs.Attempts
import TrainerBooking.Proofs.Batches
import TrainerBooking.Proofs.Bookings
import TrainerBooking.Proofs.Books
import TrainerBooking.Proofs.ByteOrder
import TrainerBooking.Proofs.Calendar
import TrainerBooking.Proofs.Canonical
import TrainerBooking.Proofs.Codecs
import TrainerBooking.Proofs.Commands
import TrainerBooking.Proofs.Consent
import TrainerBooking.Proofs.Contents
import TrainerBooking.Proofs.Counters
import TrainerBooking.Proofs.Crashes
import TrainerBooking.Proofs.Days
import TrainerBooking.Proofs.Equivalence
import TrainerBooking.Proofs.Filings
import TrainerBooking.Proofs.Frozen
import TrainerBooking.Proofs.Guarded
import TrainerBooking.Proofs.Guards
import TrainerBooking.Proofs.Hours
import TrainerBooking.Proofs.Layers
import TrainerBooking.Proofs.Ledger
import TrainerBooking.Proofs.Leftovers
import TrainerBooking.Proofs.Listing
import TrainerBooking.Proofs.Meets
import TrainerBooking.Proofs.Mirror
import TrainerBooking.Proofs.Narration
import TrainerBooking.Proofs.Occupancy
import TrainerBooking.Proofs.Ownership
import TrainerBooking.Proofs.Plain
import TrainerBooking.Proofs.Plans
import TrainerBooking.Proofs.Postings
import TrainerBooking.Proofs.Race
import TrainerBooking.Proofs.Refunds
import TrainerBooking.Proofs.Reports
import TrainerBooking.Proofs.Residue
import TrainerBooking.Proofs.RoundTrip
import TrainerBooking.Proofs.Rulings
import TrainerBooking.Proofs.Runs
import TrainerBooking.Proofs.Scripts
import TrainerBooking.Proofs.Showing
import TrainerBooking.Proofs.Stamps
import TrainerBooking.Proofs.Starts
import TrainerBooking.Proofs.Stepping
import TrainerBooking.Proofs.Times
import TrainerBooking.Proofs.Timetable
import TrainerBooking.Proofs.Traces
import TrainerBooking.Proofs.Trainings
import TrainerBooking.Proofs.Updates
import TrainerBooking.Proofs.Window
import TrainerBooking.Proofs.Winners
import TrainerBooking.Proofs.Slots
