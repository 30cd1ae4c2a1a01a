import StatusEffects.Main
import StatusEffects.Engine.View
import StatusEffects.Json.Reader
import StatusEffects.Json.Scenario
import StatusEffects.Proofs.Exclusion
import StatusEffects.Proofs.Timers
import StatusEffects.Proofs.Reply
import StatusEffects.Proofs.Advance
import StatusEffects.Proofs.Waiting
import StatusEffects.Proofs.Standing
import StatusEffects.Proofs.Draining
import StatusEffects.Proofs.Fate
import StatusEffects.Proofs.Purpose
import StatusEffects.Proofs.Cast
import StatusEffects.Proofs.Course
import StatusEffects.Proofs.Agenda
import StatusEffects.Proofs.Backlog
import StatusEffects.Proofs.Rejection
import StatusEffects.Proofs.Generation
import StatusEffects.Proofs.Race
import StatusEffects.Proofs.Upshot
import StatusEffects.Proofs.SameBut
import StatusEffects.Proofs.Isolation
import StatusEffects.Proofs.Polarity
import StatusEffects.Proofs.Timeline
import StatusEffects.Proofs.Endless
import StatusEffects.Proofs.Schedule
import StatusEffects.Proofs.Aging
import StatusEffects.Proofs.Death
import StatusEffects.Proofs.Bonuses
import StatusEffects.Proofs.Turnout
import StatusEffects.Proofs.Refused
import StatusEffects.Proofs.Admitted
import StatusEffects.Proofs.Operations
import StatusEffects.Proofs.Shelves
import StatusEffects.Proofs.Shelving
import StatusEffects.Proofs.Tidy
import StatusEffects.Proofs.Contest
import StatusEffects.Proofs.Dispelled
import StatusEffects.Proofs.Cancelled
import StatusEffects.Proofs.Overflow
import StatusEffects.Proofs.Rounding
import StatusEffects.Proofs.Acceptance
import StatusEffects.Proofs.Enchanted
import StatusEffects.Proofs.Overdue
import StatusEffects.Proofs.Countdown
import StatusEffects.Proofs.Extension
import StatusEffects.Proofs.Variants
import StatusEffects.Proofs.Directory
import StatusEffects.Proofs.Fanout
import StatusEffects.Proofs.Lifespan
import StatusEffects.Proofs.Balance
