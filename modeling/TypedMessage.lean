import TypedMessage.Keccak
import TypedMessage.Hex
import TypedMessage.FieldType
import TypedMessage.Version
import TypedMessage.Json.Basic
import TypedMessage.Json.Record
import TypedMessage.Main
import TypedMessage.Reply.Reader
import TypedMessage.Log.Entry
import TypedMessage.Json.Printer
import TypedMessage.Proofs.Digest
import TypedMessage.Proofs.Conformance
import TypedMessage.Proofs.References
import TypedMessage.Proofs.TypeStrings
import TypedMessage.Proofs.Versions
import TypedMessage.Proofs.Widths
import TypedMessage.Proofs.Requests
import TypedMessage.Proofs.Answers
import TypedMessage.Proofs.History
import TypedMessage.Proofs.Commands
import TypedMessage.Proofs.Callers
import TypedMessage.Proofs.Remainders
import TypedMessage.Proofs.Skipping
import TypedMessage.Proofs.Queries
import TypedMessage.Proofs.IntegerWords
import TypedMessage.Proofs.CallDepth
import TypedMessage.Proofs.Replies
import TypedMessage.Proofs.Schemas
import TypedMessage.Proofs.TypeGrammar
import TypedMessage.Proofs.Undeclared
import TypedMessage.Proofs.CheckedRuns
import TypedMessage.Proofs.HashFields
import TypedMessage.Proofs.HexTexts
