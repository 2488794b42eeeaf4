import GrammarLexer.Catalog
import GrammarLexer.GrammarFile
import GrammarLexer.ManualReference
import GrammarLexer.Session
import GrammarLexer.Proofs.Runs
import GrammarLexer.Proofs.Matching
import GrammarLexer.Proofs.Placeholders
import GrammarLexer.Proofs.Pieces
import GrammarLexer.Proofs.Block
import GrammarLexer.Proofs.Lexemes
import GrammarLexer.Proofs.Lines
import GrammarLexer.Proofs.Layouts
import GrammarLexer.Proofs.References
import GrammarLexer.Proofs.Scanning
import GrammarLexer.Proofs.Locations
import GrammarLexer.Proofs.Partition
import GrammarLexer.Proofs.Relocation
import GrammarLexer.Proofs.Assembly
import GrammarLexer.Proofs.Separation
import GrammarLexer.Proofs.Respelling
import GrammarLexer.Proofs.Tracking
import GrammarLexer.Proofs.Faults
import GrammarLexer.Proofs.Diagnosis
import GrammarLexer.Proofs.Sites
import GrammarLexer.Proofs.Guarded
import GrammarLexer.Proofs.Moves
import GrammarLexer.Proofs.GuardedCode
import GrammarLexer.Proofs.Safety
import GrammarLexer.Proofs.Clearing
import GrammarLexer.Proofs.Ordering
import GrammarLexer.Proofs.Attempts
import GrammarLexer.Proofs.Termination
import GrammarLexer.Proofs.LongestMatch
import GrammarLexer.Proofs.Keywords
import GrammarLexer.Proofs.Labels
import GrammarLexer.Proofs.Numbers
import GrammarLexer.Proofs.Closing
import GrammarLexer.Proofs.Tracing
import GrammarLexer.Proofs.Display
import GrammarLexer.Proofs.Catalogs
import GrammarLexer.Proofs.Snippets
import GrammarLexer.Proofs.Strides
