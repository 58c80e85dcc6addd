import Javascribe.Construct.Outline
import Javascribe.LogFormat
import Javascribe.Main
import Javascribe.Proofs.Balance
import Javascribe.Proofs.CatchSelection
import Javascribe.Proofs.CommentedNames
import Javascribe.Proofs.DeclaredMembers
import Javascribe.Proofs.EmitNesting
import Javascribe.Proofs.Locality
import Javascribe.Proofs.Narrowing
import Javascribe.Proofs.Qualifiers
import Javascribe.Proofs.Rejection
import Javascribe.Proofs.Remembering
import Javascribe.Proofs.Requests
import Javascribe.Proofs.Sequences
import Javascribe.Proofs.SettledTypes
import Javascribe.Proofs.SiblingClasses
import Javascribe.Proofs.SwitchOrder
import Javascribe.Proofs.TokenSearch
import Javascribe.Proofs.TypeText
import Javascribe.Proofs.Underline
import Javascribe.Proofs.Unreachable
import Javascribe.Typing.Outline
