import Phrasebook.Log.Transcript
import Phrasebook.Proofs.Book.Alarm
import Phrasebook.Proofs.Book.Documents
import Phrasebook.Proofs.Book.Listening
import Phrasebook.Proofs.Book.Wording
import Phrasebook.Proofs.Library.Dispatch
import Phrasebook.Proofs.Markup.Fragments
import Phrasebook.Proofs.Pack.Grouping
import Phrasebook.Proofs.Placeholder
import Phrasebook.Proofs.Reference.Nesting
import Phrasebook.Proofs.Reference.Seam
import Phrasebook.Proofs.Reference.Size
import Phrasebook.Proofs.Storage.Roots
import Phrasebook.Proofs.TagFile.Joined
import Phrasebook.Proofs.TagFile.Lossy
import Phrasebook.Session
