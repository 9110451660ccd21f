import ScriptReader.Display
import ScriptReader.Item
import ScriptReader.Proofs.LongestMatch
import ScriptReader.Proofs.Places
import ScriptReader.Session.Workspace
import ScriptReader.Tables
import ScriptReader.Proofs.Cut
import ScriptReader.Proofs.Moves
import ScriptReader.Proofs.Grammar
import ScriptReader.Proofs.Prospect
import ScriptReader.Proofs.Refinement
import ScriptReader.Proofs.Seam
import ScriptReader.Proofs.Replacement
import ScriptReader.Proofs.Synchronisation
import ScriptReader.Proofs.Locations
import ScriptReader.Proofs.Positions
import ScriptReader.Proofs.Spans
import ScriptReader.Proofs.Language
import ScriptReader.Proofs.Calls
import ScriptReader.Proofs.Slices
import ScriptReader.Proofs.Halts
import ScriptReader.Proofs.Remains
import ScriptReader.Proofs.Layout
import ScriptReader.Proofs.Stream
import ScriptReader.Proofs.Warnings
import ScriptReader.Proofs.Runs
import ScriptReader.Proofs.Policies
import ScriptReader.Proofs.Sight
import ScriptReader.Proofs.Turns
import ScriptReader.Proofs.Sharing
import ScriptReader.Proofs.Rounds
import ScriptReader.Proofs.Timeline
import ScriptReader.Proofs.Wording
import ScriptReader.Proofs.Diary
import ScriptReader.Proofs.Slots
import ScriptReader.Proofs.Kinship
import ScriptReader.Proofs.Assignments
import ScriptReader.Proofs.Moments
import ScriptReader.Proofs.Beginnings
import ScriptReader.Proofs.Relocation
import ScriptReader.Proofs.Spellings
import ScriptReader.Proofs.Sketches
import ScriptReader.Proofs.Legible
import ScriptReader.Proofs.Faithful
import ScriptReader.Proofs.Findings
import ScriptReader.Proofs.Respelling
import ScriptReader.Proofs.Visits
import ScriptReader.Proofs.Recovery
import ScriptReader.Proofs.Logbook
import ScriptReader.Proofs.Closings
import ScriptReader.Proofs.Numbers
import ScriptReader.Proofs.Skips
