import StreamSql.Compiler
import StreamSql.Json.Text
import StreamSql.CommandLine.Run
import StreamSql.Main
import StreamSql.Proofs.Lexical.Statements
import StreamSql.Proofs.Readable.Conditions
import StreamSql.Proofs.Readable.Creates
import StreamSql.Proofs.Readable.Inserts
import StreamSql.Proofs.Client.Attempts
import StreamSql.Proofs.Client.Sequence
import StreamSql.Proofs.Client.Calls
import StreamSql.Proofs.Documents.Reading
import StreamSql.Proofs.Documents.Writing
import StreamSql.Proofs.Documents.Windows
import StreamSql.Proofs.Documents.Expressions
import StreamSql.Proofs.Documents.Conditions
import StreamSql.Proofs.Documents.Decoded
import StreamSql.Proofs.Documents.Queries
import StreamSql.Proofs.Documents.Statements
import StreamSql.Proofs.Client.Commands
import StreamSql.Proofs.Client.Rejections
import StreamSql.Proofs.CommandLine.Execution
import StreamSql.Proofs.Lexical.Batches
import StreamSql.Proofs.Validity.Faults
import StreamSql.Proofs.Readable.Comparisons
import StreamSql.Proofs.Documents.Rearranged
import StreamSql.Proofs.Documents.Orderless
import StreamSql.Proofs.Documents.MemberOrder
import StreamSql.Proofs.Documents.Normal
import StreamSql.Proofs.CommandLine.Agreement
import StreamSql.Proofs.Erasure.Noninterference
import StreamSql.Proofs.Layout.Lists
import StreamSql.Proofs.Layout.Aliases
import StreamSql.Proofs.Literals.Integers
import StreamSql.Proofs.Reports.ColumnTypes
import StreamSql.Proofs.Reports.Conditions
import StreamSql.Proofs.Spellings.AggregateTests
import StreamSql.Proofs.Spellings.Variants
import StreamSql.Proofs.Config.Urls
import StreamSql.Proofs.CommandLine.Accounts
import StreamSql.Proofs.Client.Terminators
import StreamSql.Proofs.Server.Entities
import StreamSql.Proofs.Client.Delays
import StreamSql.Proofs.Config.Variables
import StreamSql.Proofs.Readable.Windows
import StreamSql.Proofs.Documents.Depth
import StreamSql.Proofs.Documents.Exchange
import StreamSql.Proofs.Spellings.Comparisons
