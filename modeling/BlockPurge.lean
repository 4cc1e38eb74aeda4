import BlockPurge.Main
import BlockPurge.Proofs.Backup.Naming
import BlockPurge.Proofs.Block.Decoding
import BlockPurge.Proofs.Config.Defaults
import BlockPurge.Proofs.Config.RoundTrip
import BlockPurge.Proofs.Erase.Summary
import BlockPurge.Proofs.Invocation.Merging
import BlockPurge.Proofs.Metadata.Editing
import BlockPurge.Proofs.Metadata.Grammar
import BlockPurge.Proofs.Metadata.LastWrite
import BlockPurge.Proofs.Metadata.Normal
import BlockPurge.Proofs.Metadata.Storing
import BlockPurge.Proofs.Metadata.Tally
import BlockPurge.Proofs.Progress.Counting
import BlockPurge.Proofs.Progress.Printing
import BlockPurge.Proofs.Purge.Completion
import BlockPurge.Proofs.Purge.Counts
import BlockPurge.Proofs.Purge.Endings
import BlockPurge.Proofs.Purge.Indicator
import BlockPurge.Proofs.Purge.Indifference
import BlockPurge.Proofs.Purge.Interference
import BlockPurge.Proofs.Purge.Lifetime
import BlockPurge.Proofs.Purge.Policies
import BlockPurge.Proofs.Purge.Printout
import BlockPurge.Proofs.Purge.Record
import BlockPurge.Proofs.Purge.Rehearsal
import BlockPurge.Proofs.Purge.Resume
import BlockPurge.Proofs.Purge.Survival
import BlockPurge.Proofs.Purge.Turns
import BlockPurge.Proofs.Purge.Unforged
import BlockPurge.Proofs.Session.Checks
import BlockPurge.Proofs.Session.Quiet
