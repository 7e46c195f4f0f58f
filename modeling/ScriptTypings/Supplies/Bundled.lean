/-!
# Bundled supplies

The header, the overrides of short names, and the numbers of type arguments that are used where no
folder of supplementary files is given.
-/

namespace ScriptTypings.Supplies

/-- The lines of the header, the last of which has no end. -/
def bundledHeaderLines : List String :=
  [
    "// Type definitions for Universal Windows Platform",
    "// Project: http://msdn.microsoft.com/en-us/library/windows/apps/br211377.aspx",
    "// Definitions by: Kagami Sascha Rosylight <https://github.com/saschanaz>, Taylor Starfield <https://github.com/taylor224>",
    "// Definitions: https://github.com/borisyankov/DefinitelyTyped",
    "// Generator: uwp-type-generator <https://github.com/saschanaz/uwp-type-generator>",
    "",
    "declare namespace Windows \x7b",
    "    interface WinRTError extends Error \x7b",
    "        description: string;",
    "        number: number;",
    "    \x7d",
    "    interface WinRTEvent<TSender> \x7b",
    "        detail: any[];",
    "        target: TSender;",
    "        type: string;",
    "    \x7d",
    "    interface IInspectable \x7b /* TODO: No UWP document exists */ \x7d",
    "\x7d",
    "",
    "declare namespace Windows.Foundation \x7b",
    "    interface IPromise<TResult> \x7b",
    "        then<U>(success?: (value: TResult) => IPromise<U>, error?: (error: any) => IPromise<U>, progress?: (progress: any) => void): IPromise<U>;",
    "        then<U>(success?: (value: TResult) => IPromise<U>, error?: (error: any) => U, progress?: (progress: any) => void): IPromise<U>;",
    "        then<U>(success?: (value: TResult) => U, error?: (error: any) => IPromise<U>, progress?: (progress: any) => void): IPromise<U>;",
    "        then<U>(success?: (value: TResult) => U, error?: (error: any) => U, progress?: (progress: any) => void): IPromise<U>;",
    "        done<U>(success?: (value: TResult) => any, error?: (error: any) => any, progress?: (progress: any) => void): void;",
    "",
    "        cancel(): void;",
    "    \x7d",
    "    interface IPromiseWithOperation<TResult, TOperation extends Windows.Foundation.IAsyncAction> extends IPromise<TResult> \x7b",
    "        operation: TOperation;",
    "    \x7d",
    "    type IPromiseWithIAsyncAction = IPromiseWithOperation<void, IAsyncAction>;",
    "    type IPromiseWithIAsyncActionWithProgress<TProgress> = IPromiseWithOperation<void, IAsyncActionWithProgress<TProgress>>;",
    "    type IPromiseWithIAsyncOperation<TResult> = IPromiseWithOperation<TResult, IAsyncOperation<TResult>>;",
    "    type IPromiseWithIAsyncOperationWithProgress<TResult, TProgress> = IPromiseWithOperation<TResult, IAsyncOperationWithProgress<TResult, TProgress>>;",
    "    ",
    "    namespace Collections \x7b",
    "        interface IVector<T> extends Array<T> \x7b",
    "            indexOf(value: T, ...extra: any[]): \x7b index: number; returnValue: boolean; \x7d /* hack */",
    "            indexOf(searchElement: T, fromIndex?: number): number; /* hack */",
    "        \x7d",
    "        interface IVectorView<T> extends Array<T> \x7b",
    "            indexOf(value: T, ...extra: any[]): \x7b index: number; returnValue: boolean; \x7d /* hack */",
    "            indexOf(searchElement: T, fromIndex?: number): number; /* hack */",
    "        \x7d",
    "    \x7d",
    "\x7d",
    "declare namespace Windows.Media.Core \x7b",
    "    interface MseStreamSource \x7b /* TODO, this class is inaccessible on JS environment */ \x7d",
    "\x7d",
    "declare namespace Windows.Networking.Sockets \x7b",
    "    interface IWebSocket \x7b",
    "        close(): void; /* hack: redeclare overload */",
    "    \x7d",
    "\x7d"
  ]

/-- The declarations written before the generated ones. -/
def bundledHeader : String :=
  String.intercalate "\n" bundledHeaderLines

/-- Identifiers of the types that many pages refer to by short names. -/
def bundledOverrides : List (String × String) :=
  [
    ("IAsyncAction", "Windows.Foundation.IAsyncAction"),
    ("IAsyncActionWithProgress", "Windows.Foundation.IAsyncActionWithProgress"),
    ("IAsyncOperation", "Windows.Foundation.IAsyncOperation"),
    ("IAsyncOperationWithProgress", "Windows.Foundation.IAsyncOperationWithProgress"),
    ("IIterable", "Windows.Foundation.Collections.IIterable"),
    ("IMapView", "Windows.Foundation.Collections.IMapView"),
    ("IVector", "Windows.Foundation.Collections.IVector"),
    ("IVectorView", "Windows.Foundation.Collections.IVectorView")
  ]

/-- The numbers of type arguments of generic types. -/
def bundledArity : List (String × Int) :=
  [
    ("Windows.Foundation.AsyncActionProgressHandler", 1),
    ("Windows.Foundation.AsyncActionWithProgressCompletedHandler", 1),
    ("Windows.Foundation.AsyncOperationCompletedHandler", 1),
    ("Windows.Foundation.AsyncOperationProgressHandler", 2),
    ("Windows.Foundation.AsyncOperationWithProgressCompletedHandler", 2),
    ("Windows.Foundation.Collections.IIterable", 1),
    ("Windows.Foundation.Collections.IIterator", 1),
    ("Windows.Foundation.Collections.IKeyValuePair", 2),
    ("Windows.Foundation.Collections.IMap", 2),
    ("Windows.Foundation.Collections.IMapChangedEventArgs", 1),
    ("Windows.Foundation.Collections.IMapView", 2),
    ("Windows.Foundation.Collections.IObservableMap", 2),
    ("Windows.Foundation.Collections.IObservableVector", 1),
    ("Windows.Foundation.Collections.IVector", 1),
    ("Windows.Foundation.Collections.IVectorView", 1),
    ("Windows.Foundation.Collections.MapChangedEventHandler", 2),
    ("Windows.Foundation.Collections.VectorChangedEventHandler", 1),
    ("Windows.Foundation.EventHandler", 1),
    ("Windows.Foundation.IAsyncActionWithProgress", 1),
    ("Windows.Foundation.IAsyncOperation", 1),
    ("Windows.Foundation.IAsyncOperationWithProgress", 2),
    ("Windows.Foundation.IReference", 1),
    ("Windows.Foundation.IReferenceArray", 1),
    ("Windows.Foundation.TypedEventHandler", 2)
  ]

end ScriptTypings.Supplies
