import UmlSkeleton.Main
import UmlSkeleton.Proofs.Inheritance
import UmlSkeleton.Proofs.Model.KeyParent
import UmlSkeleton.Proofs.Skeleton.Factorisation
import UmlSkeleton.Proofs.Skeleton.Lines
import UmlSkeleton.Target.Document
import UmlSkeleton.Proofs.Skeleton.Parents
import UmlSkeleton.Proofs.Json.Grammar
import UmlSkeleton.Proofs.Json.Scanning
import UmlSkeleton.Proofs.Json.Skipping
import UmlSkeleton.Proofs.Json.Meaning
import UmlSkeleton.Proofs.Json.Writing
import UmlSkeleton.Proofs.Json.RoundTrip
import UmlSkeleton.Proofs.Model.RoundTrip
import UmlSkeleton.Proofs.Text.Lines
import UmlSkeleton.Proofs.Layout.Lines
import UmlSkeleton.Proofs.Trailer
import UmlSkeleton.Proofs.Skeleton.FirstParents
import UmlSkeleton.Proofs.Skeleton.Renaming
import UmlSkeleton.Proofs.Skeleton.ClassOrder
import UmlSkeleton.Proofs.Model.Texts
import UmlSkeleton.Proofs.Python.Source
import UmlSkeleton.Proofs.Skeleton.SingleLines
import UmlSkeleton.Proofs.Python.Bodies
import UmlSkeleton.Proofs.Python.Echoes
import UmlSkeleton.Proofs.Text.Case
import UmlSkeleton.Proofs.Text.Readable
import UmlSkeleton.Proofs.Layout.Texts
import UmlSkeleton.Proofs.Java.View
import UmlSkeleton.Proofs.Java.Reading
import UmlSkeleton.Proofs.CommandLine.Files
import UmlSkeleton.Proofs.CommandLine.Generate
import UmlSkeleton.Proofs.CommandLine.Validate
import UmlSkeleton.Proofs.CommandLine.Room
import UmlSkeleton.Proofs.Layout.Braces
import UmlSkeleton.Proofs.Skeleton.Braces
import UmlSkeleton.Proofs.Layout.Alike
import UmlSkeleton.Proofs.Skeleton.Documentation
import UmlSkeleton.Proofs.Skeleton.Nesting
import UmlSkeleton.Proofs.Layout.Selects
import UmlSkeleton.Proofs.Skeleton.Declarations
import UmlSkeleton.Proofs.Model.FirstDefect
import UmlSkeleton.Proofs.Json.Acceptance
import UmlSkeleton.Proofs.Json.Objects
import UmlSkeleton.Proofs.Json.Editing
import UmlSkeleton.Proofs.Model.Presentation
import UmlSkeleton.Proofs.Model.Rejection
import UmlSkeleton.Proofs.Skeleton.Signature
import UmlSkeleton.Proofs.Skeleton.Source
import UmlSkeleton.Proofs.Skeleton.Results
import UmlSkeleton.Proofs.Layout.Paragraphs
import UmlSkeleton.Proofs.Python.Paragraphs
import UmlSkeleton.Proofs.Skeleton.Accessors
import UmlSkeleton.Proofs.Skeleton.Members
import UmlSkeleton.Proofs.Skeleton.Blanks
import UmlSkeleton.Proofs.Layout.Runs
import UmlSkeleton.Proofs.TypeMap
import UmlSkeleton.Proofs.Php.Insertion
import UmlSkeleton.Proofs.Layout.Reach
import UmlSkeleton.Proofs.Skeleton.Reach
import UmlSkeleton.Proofs.Writer.Buffer
import UmlSkeleton.Proofs.Writer.Run
import UmlSkeleton.Proofs.Skeleton.Emission
